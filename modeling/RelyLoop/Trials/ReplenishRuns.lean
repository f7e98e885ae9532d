import RelyLoop.Trials.ReplenishSafety

/-!
# Whole runs of orchestrators and workers

The top-up knows under its lock how many trials it may still allocate, and a
`run_trial` that returns has left a row. In every run the bounds hold and every trial
is accounted for; when nothing is lost, the last job of the study leaves the
`max_trials` stop condition satisfied.
-/

namespace RelyLoop.Trials.Replenish

open Concurrency Studies

variable {cfg : ReplenishConfig} {ev : Eval.Evaluator} {T : Type} [DecidableEq T] {t : T} {j : Job}
variable {w : ReplenishWorld T} {α β : Type}

/-- `p` is safe from `w` on, and ends in `Q` when it returns. -/
abbrev ReplenishSafe (cfg : ReplenishConfig) (ev : Eval.Evaluator) (t : T) (j : Job)
    (Q : α → ReplenishWorld T → Prop) (p : Db α) (w : ReplenishWorld T) : Prop :=
  Safe (replenishSystem T cfg ev) (replenishContract T cfg) t j Q (fun _ _ => True) p w

/-- What the others do not spoil. -/
def Stable (cfg : ReplenishConfig) (t : T) (P : ReplenishWorld T → Prop) : Prop :=
  ∀ w w', ReplenishRely cfg t w w' → P w → P w'

theorem stable_true : Stable (T := T) cfg t fun _ => True := fun _ _ _ _ => trivial

/-- The rule of an operation: what the process knows permits it. -/
theorem safe_perform {P : ReplenishWorld T → Prop} (hP : Stable cfg t P) (h : P w)
    {o : ReplenishOp} {Q : o.Res → ReplenishWorld T → Prop}
    (hpermitted : ∀ w, P w → Permitted cfg t w o)
    (hpost : ∀ w w' a, P w → Consistent cfg w → execReplenish cfg t w o = some (w', a) →
      Q a w') :
    ReplenishSafe cfg ev t j Q (Program.perform o) w := by
  intro w₁ hrely hinv _ w₂ a hexec
  have h₁ := hP _ _ hrely h
  exact ⟨guarantees_exec hinv (hpermitted w₁ h₁) hexec, hpost w₁ w₂ a h₁ hinv hexec⟩

/-- An operation that is permitted anywhere. -/
theorem safe_quiet {o : ReplenishOp} (hpermitted : ∀ w : ReplenishWorld T, Permitted cfg t w o) :
    ReplenishSafe cfg ev t j (fun _ _ => True) (Program.perform o) w :=
  safe_perform stable_true trivial (fun w _ => hpermitted w) fun _ _ _ _ _ _ => trivial

/-- A program with quiet operations only. -/
theorem safe_of_quiet {p : Db α}
    (h : p.Every fun o => ∀ w : ReplenishWorld T, Permitted cfg t w o) :
    ReplenishSafe cfg ev t j (fun _ _ => True) p w :=
  Safe.of_every (fun _ ho w₁ _ _ hinv hexec => guarantees_exec hinv (ho w₁) hexec) h

/-! ## The top-up -/

/-- The stop conditions do not touch what the contract is about. -/
theorem safe_stopConditions (run : TickRun) :
    ReplenishSafe cfg ev t j (fun _ _ => True) (stopConditions cfg run) w := by
  have hend : ∀ target, (endStudy target).Every
      fun o => ∀ w : ReplenishWorld T, Permitted cfg t w o :=
    fun target => Program.Every.bind ⟨fun _ => trivial, fun _ => trivial⟩ fun _ => trivial
  apply safe_of_quiet
  refine Program.Every.bind ⟨fun _ => trivial, fun _ => trivial⟩ fun current => ?_
  split
  · trivial
  refine Program.Every.bind ⟨fun _ => trivial, fun _ => trivial⟩ fun summarized => ?_
  refine Program.Every.bind ⟨fun _ => trivial, fun _ => trivial⟩ fun recent => ?_
  split
  · exact (hend _).bind fun _ => trivial
  refine Program.Every.bind ⟨fun _ => trivial, fun _ => trivial⟩ fun recent => ?_
  split
  · exact (hend _).bind fun _ => trivial
  split
  · exact (hend _).bind fun _ => trivial
  split
  · exact (hend _).bind fun _ => trivial
  · trivial

/-- The process holds the lock, and may allocate `rounds` more trials. -/
def Room (cfg : ReplenishConfig) (t : T) (rounds : ℕ) (w : ReplenishWorld T) : Prop :=
  w.lock = some t ∧
    (∀ maxTrials, cfg.maxTrials = some maxTrials → w.allocated + rounds ≤ maxTrials) ∧
    inFlight (w.states cfg) + rounds ≤ cfg.parallelism

/-- While the process holds the lock the others only make room. -/
theorem stable_room (rounds : ℕ) : Stable (T := T) cfg t (Room cfg t rounds) := by
  rintro w w' ⟨-, -, hholds⟩ ⟨hlock, hmax, hslots⟩
  obtain ⟨hlock', halloc, hfinishes⟩ := hholds hlock
  have hfewer : inFlight (w'.states cfg) ≤ inFlight (w.states cfg) :=
    countP_states_le (fun state h => by simpa using h) halloc hfinishes
  refine ⟨hlock', fun maxTrials h => ?_, ?_⟩
  · rw [halloc]
    exact hmax maxTrials h
  · omega

/-- A trial takes up a slot. -/
theorem room_ask {rounds : ℕ} {w' : ReplenishWorld T} {a : ℕ} (h : Room cfg t (rounds + 1) w)
    (hexec : execReplenish cfg t w .ask = some (w', a)) : Room cfg t rounds w' := by
  obtain ⟨hlock, hmax, hslots⟩ := h
  have hstates : w'.states cfg = w.states cfg ++ [.running] := by
    obtain ⟨rfl, -⟩ := Prod.mk.inj (Option.some.inj hexec)
    exact states_ask
  obtain ⟨rfl, -⟩ := Prod.mk.inj (Option.some.inj hexec)
  refine ⟨hlock, fun maxTrials h => ?_, ?_⟩
  · have hroom := hmax maxTrials h
    change w.allocated + 1 + rounds ≤ maxTrials
    omega
  · rw [hstates]
    simp only [inFlight, List.countP_append, List.countP_singleton, TrialState.isFinished,
      Bool.not_false, if_true] at hslots ⊢
    omega

/-- A round of the top-up takes up one slot. -/
theorem safe_topUp {run : TickRun} {round rounds : ℕ} (h : Room cfg t (rounds + 1) w) :
    ReplenishSafe cfg ev t j (fun _ => Room cfg t rounds) (topUp run round) w := by
  have hrest : ∀ fault w, Room cfg t (rounds + 1) w →
      ReplenishSafe cfg ev t j (fun _ => Room cfg t rounds) (do
        let number ← Program.perform ReplenishOp.ask
        match fault with
        | some fault => raiseFault fault
        | none => Program.perform (ReplenishOp.enqueueJob number)) w := by
    intro fault w h
    refine Safe.seq (safe_perform (o := .ask) (stable_room (rounds + 1)) h ?_
      fun w w' a hroom _ hexec => room_ask hroom hexec) fun number w hroom => ?_
    · rintro w ⟨hlock, hmax, hslots⟩
      refine ⟨hlock, fun maxTrials hmaxTrials => ?_, by omega⟩
      have hroom := hmax maxTrials hmaxTrials
      omega
    · cases fault with
      | some fault => trivial
      | none =>
        refine safe_perform (o := .enqueueJob number) (stable_room rounds) hroom
          (fun _ _ => trivial) fun w w' a hroom _ hexec => ?_
        obtain ⟨rfl, -⟩ := Prod.mk.inj (Option.some.inj hexec)
        exact hroom
  unfold topUp
  split
  · trivial
  · exact hrest _ w h

/-- The rounds of a top-up. -/
theorem safe_rounds {run : TickRun} {rounds : List ℕ} (h : Room cfg t rounds.length w) :
    ReplenishSafe cfg ev t j (fun _ => Room cfg t 0) (Program.each (topUp run) rounds) w := by
  induction rounds generalizing w with
  | nil => exact h
  | cons round rounds ih => exact Safe.seq (safe_topUp h) fun _ _ hroom => ih hroom

/-- The open slots of a count that misses no trial in flight. -/
theorem room_openSlots {counted : ℕ} (hinv : Consistent cfg w) (hlock : w.lock = some t)
    (hcounted : inFlight (w.states cfg) ≤ counted) :
    Room cfg t (openSlots cfg counted w.allocated) w := by
  have hparallel := hinv.parallel
  refine ⟨hlock, fun maxTrials hmax => ?_, ?_⟩
  · have hbounded := hinv.bounded maxTrials hmax
    simp only [openSlots, hmax]
    omega
  · unfold openSlots
    dsimp only
    split <;> omega

/-- The lock is held, and a number that is known of the states is kept. -/
def CountedAs (cfg : ReplenishConfig) (t : T) (p : TrialState → Bool) (counted : ℕ)
    (w : ReplenishWorld T) : Prop :=
  w.lock = some t ∧ (w.states cfg).countP p ≤ counted

theorem stable_countedAs {p : TrialState → Bool}
    (hp : ∀ state, p state = true → state.isFinished = false) (counted : ℕ) :
    Stable (T := T) cfg t (CountedAs cfg t p counted) := by
  rintro w w' ⟨-, -, hholds⟩ ⟨hlock, hcount⟩
  obtain ⟨hlock', halloc, hfinishes⟩ := hholds hlock
  exact ⟨hlock', (countP_states_le hp halloc hfinishes).trans hcount⟩

theorem isFinished_of_running (state : TrialState) (h : decide (state = .running) = true) :
    state.isFinished = false := by
  rw [of_decide_eq_true h]
  rfl

theorem isFinished_of_inFlight (state : TrialState) (h : (!state.isFinished) = true) :
    state.isFinished = false := by simpa using h

/-- The count misses no trial in flight: those that run when they are counted first may
have finished since, but none has started to run. -/
theorem safe_countInFlight (hlock : w.lock = some t) :
    ReplenishSafe cfg ev t j
      (fun counted => CountedAs cfg t (fun state => !state.isFinished) counted)
      countInFlight w := by
  have hlocked : Stable (T := T) cfg t fun w => w.lock = some t :=
    fun _ _ hrely h => (hrely.2.2 h).1
  refine Safe.seq (safe_perform (o := .optunaStates) hlocked hlock (fun _ _ => trivial)
    (Q := fun states => CountedAs cfg t (fun state => state = .running)
      (states.countP fun state => state = .running)) ?_) fun first w hfirst => ?_
  · intro w w' states hlock _ hexec
    obtain ⟨rfl, rfl⟩ := Prod.mk.inj (Option.some.inj hexec)
    exact ⟨hlock, le_rfl⟩
  · refine Safe.seq (safe_perform (o := .optunaStates) (stable_countedAs isFinished_of_running _)
      hfirst (fun _ _ => trivial)
      (Q := fun states => CountedAs cfg t (fun state => !state.isFinished)
        ((first.countP fun state => state = .running) +
          states.countP fun state => state = .waiting)) ?_) fun second w hsecond => hsecond
    intro w w' states hcounted _ hexec
    obtain ⟨rfl, rfl⟩ := Prod.mk.inj (Option.some.inj hexec)
    refine ⟨hcounted.1, ?_⟩
    have hparts := inFlight_eq (w.states cfg)
    have hrunning := hcounted.2
    unfold inFlight at hparts
    omega

/-- The top-up under the lock. -/
theorem safe_replenishUnderLock (run : TickRun) :
    ReplenishSafe cfg ev t j (fun _ _ => True) (replenishUnderLock cfg run) w := by
  refine Safe.seq (safe_perform (o := .tryLock) stable_true trivial (fun _ _ => trivial)
    (Q := fun taken w => taken = true → w.lock = some t) ?_) fun taken w htaken => ?_
  · intro w w' taken _ _ hexec htaken
    simp only [execReplenish] at hexec
    split at hexec
    · obtain ⟨rfl, -⟩ := Prod.mk.inj (Option.some.inj hexec)
      rfl
    · rename_i owner howner
      obtain ⟨rfl, rfl⟩ := Prod.mk.inj (Option.some.inj hexec)
      rw [howner, of_decide_eq_true htaken]
  · split
    · rename_i hlocked
      refine Safe.seq (safe_countInFlight (htaken hlocked)) fun counted w hcounted => ?_
      refine Safe.seq (safe_perform (o := .optunaStates) (stable_countedAs isFinished_of_inFlight _)
        hcounted (fun _ _ => trivial)
        (Q := fun states => Room cfg t (openSlots cfg counted states.length)) ?_)
        fun states w hroom => ?_
      · intro w w' states hcounted hinv hexec
        obtain ⟨rfl, rfl⟩ := Prod.mk.inj (Option.some.inj hexec)
        have hlength : (w.states cfg).length = w.allocated := by
          rw [ReplenishWorld.states, List.length_map, List.length_range]
        rw [hlength]
        exact room_openSlots hinv hcounted.1 hcounted.2
      · have hrounds : Room cfg t
            (List.range (openSlots cfg counted states.length)).length w := by
          rwa [List.length_range]
        exact Safe.seq (safe_rounds hrounds) fun _ _ _ => safe_quiet fun _ => trivial
    · trivial

/-- A handler that cleans up by a quiet operation and raises again. -/
theorem safe_cleanUp {o : ReplenishOp} {e : ReplenishError} {Q : α → ReplenishWorld T → Prop}
    (hpermitted : ∀ w : ReplenishWorld T, Permitted cfg t w o) :
    ReplenishSafe cfg ev t j Q ((Program.perform o).bind fun _ => .raise e) w :=
  Safe.seq (safe_quiet hpermitted) fun _ _ _ => trivial

/-- A tick keeps the contract. -/
theorem safe_tick (run : TickRun) :
    ReplenishSafe cfg ev t j (fun _ _ => True) (tick cfg run) w := by
  refine Safe.seq (safe_stopConditions run) fun goOn w _ => ?_
  split
  · have hbody : ReplenishSafe cfg ev t j (fun _ _ => True) (do
        replenishUnderLock cfg run
        Program.perform ReplenishOp.rollback) w :=
      Safe.seq (safe_replenishUnderLock run) fun _ _ _ => safe_quiet (o := .rollback) fun _ => trivial
    exact Safe.handle (hbody.mono (fun _ _ h => h) fun _ _ _ =>
      safe_cleanUp (o := .rollback) fun _ => trivial)
  · trivial

/-! ## The jobs -/

/-- `p` is a program of `run_trial` that is safe from `w` on. -/
abbrev TrialSafe (cfg : ReplenishConfig) (ev : Eval.Evaluator) (t : T) (j : Job)
    (Q : α → ReplenishWorld T → Prop) (p : Trials.Db α) (w : ReplenishWorld T) : Prop :=
  ReplenishSafe cfg ev t j Q (ofTrial p) w

section Worker

variable {Q : α → ReplenishWorld T → Prop} {R : β → ReplenishWorld T → Prop}

theorem TrialSafe.seq {p : Trials.Db α} {f : α → Trials.Db β} (h : TrialSafe cfg ev t j Q p w)
    (hf : ∀ a w, Q a w → TrialSafe cfg ev t j R (f a) w) :
    TrialSafe cfg ev t j R (p.bind f) w := by
  induction p generalizing w with
  | done a => exact hf a w h
  | raise e => trivial
  | call o next ih =>
    intro w₁ hrely hinv hcond w₂ r hexec
    obtain ⟨hguar, hnext⟩ := h w₁ hrely hinv hcond w₂ r hexec
    exact ⟨hguar, ih r hnext⟩

theorem TrialSafe.handle {p : Trials.Db α} {handler : TrialFailure → Trials.Db α}
    (h : TrialSafe cfg ev t j Q p w) (hhandler : ∀ e w, TrialSafe cfg ev t j Q (handler e) w) :
    TrialSafe cfg ev t j Q (p.handle handler) w := by
  induction p generalizing w with
  | done a => exact h
  | raise e => exact hhandler e w
  | call o next ih =>
    intro w₁ hrely hinv hcond w₂ r hexec
    obtain ⟨hguar, hnext⟩ := h w₁ hrely hinv hcond w₂ r hexec
    exact ⟨hguar, ih r hnext⟩

theorem safe_raiseIfAny {exc : Option TrialException} {studyLoaded tellSucceeded : Bool}
    {Q : Unit → ReplenishWorld T → Prop} (hQ : Q () w) :
    TrialSafe cfg ev t j Q (raiseIfAny exc studyLoaded tellSucceeded) w := by
  cases exc with
  | none => exact hQ
  | some exc => trivial

theorem exec_row {o : RowOp ℕ Trial} {w' : ReplenishWorld T} {a : o.Res}
    (h : execReplenish cfg t w (.trial (.row o)) = some (w', a)) :
    ∃ s, Store.exec t w.records.table o = some (s, a) ∧
      w' = { w with records := ⟨s, w.records.outside⟩ } := by
  obtain ⟨⟨records, a'⟩, htrial, heq⟩ := Option.map_eq_some_iff.mp h
  obtain ⟨rfl, rfl⟩ := Prod.mk.inj heq
  obtain ⟨⟨s, a''⟩, hstatement, heq⟩ := Option.map_eq_some_iff.mp htrial
  obtain ⟨rfl, rfl⟩ := Prod.mk.inj heq
  exact ⟨s, hstatement, rfl⟩

/-- A statement of the session. -/
theorem safe_statement {P : Store T ℕ Trial → Prop} {o : RowOp ℕ Trial}
    {Q : o.Res → ReplenishWorld T → Prop}
    (hP : ∀ s s', Store.Frame t s s' → P s → P s') (h : P w.records.table)
    (hpermitted : ∀ w : ReplenishWorld T, Permitted cfg t w (.trial (.row o)))
    (hpost : ∀ (w : ReplenishWorld T) s a, P w.records.table → Consistent cfg w →
      Store.exec t w.records.table o = some (s, a) →
      Q a { w with records := ⟨s, w.records.outside⟩ }) :
    TrialSafe cfg ev t j Q (statement o) w := by
  refine safe_perform (o := .trial (.row o)) (P := fun w => P w.records.table)
    (fun _ _ hrely h => hP _ _ hrely.1 h) h (fun w _ => hpermitted w)
    fun w w' a h hinv hexec => ?_
  obtain ⟨s, hstatement, rfl⟩ := exec_row hexec
  exact hpost w s a h hinv hstatement

/-- The trial of a delivery: a number of the optimizer, in the study. -/
structure Delivers (cfg : ReplenishConfig) (inputs : TrialInputs) (number : ℕ) : Prop where
  study : inputs.studyId = cfg.studyId
  number : inputs.optunaTrialNumber = number

/-- The delivery's trial has its row. -/
def Recorded (cfg : ReplenishConfig) (number : ℕ) (w : ReplenishWorld T) : Prop :=
  HasRow cfg w.records.table number

theorem stable_recorded (number : ℕ) : Stable (T := T) cfg t (Recorded cfg number) :=
  fun _ _ hrely h => h.mono hrely.2.1

/-- A new row is committed. -/
theorem safe_createTrial {row : Trial} {number : ℕ} (hstudy : row.studyId = cfg.studyId)
    (hnumber : row.optunaTrialNumber = number) (hbaseline : row.isBaseline = false) :
    TrialSafe cfg ev t j (fun _ => Recorded cfg number) (createTrial row) w := by
  refine TrialSafe.seq (safe_statement (P := fun _ => True)
    (Q := fun _ w => w.records.table.held t row.id = some (some row))
    (fun _ _ _ _ => trivial) trivial (fun _ hgood => ?_) fun w s a _ _ hexec => ?_)
    fun _ w hheld => ?_
  · rw [hbaseline] at hgood
    cases hgood
  · obtain ⟨-, -, rfl⟩ := Store.exec_insert hexec
    rw [Store.held_remember, Store.held_write]
  · refine safe_statement (P := fun s => s.held t row.id = some (some row))
      (fun s s' hframe h => (hframe.held row.id).trans h) hheld (fun _ => trivial)
      fun w s a hheld _ hexec => ?_
    obtain ⟨rfl, -⟩ := Prod.mk.inj (Option.some.inj hexec)
    exact ⟨row.id, row, Store.visible_of_written hheld, hstudy, hnumber, hbaseline⟩

/-- The existing row of the trial is committed. -/
theorem safe_existingTerminalAppRow {number : ℕ} (hfresh : Fresh t w.records) :
    TrialSafe cfg ev t j (fun found w => found.isSome → Recorded cfg number w)
      (existingTerminalAppRow cfg.studyId number) w := by
  refine TrialSafe.seq (safe_statement
    (P := fun s => s.Clean t ∧ ∀ key, s.identity t key = none)
    (Q := fun found w => ∀ x ∈ found, Recorded cfg number w)
    (fun s s' hframe h => ⟨h.1.frame hframe, fun key => ?_⟩) hfresh (fun _ => trivial)
    fun w s found hclean hinv hexec => ?_) fun found w hfound => ?_
  · rw [hframe.identity]
    exact h.2 key
  · obtain ⟨rfl, rfl⟩ := Prod.mk.inj (Option.some.inj hexec)
    intro x hx
    obtain ⟨⟨key, row⟩, hhit, rfl⟩ := List.mem_map.mp hx
    obtain ⟨hvisible, hcond⟩ := Store.mem_hits hhit
    rw [hclean.1.visible] at hvisible
    obtain ⟨hstudy, hnumber⟩ := of_decide_eq_true hcond
    refine ⟨key, row, by rwa [Store.committed_foldl_load], hstudy, hnumber, ?_⟩
    -- a baseline has no number of the optimizer
    by_contra hbaseline
    have hnegative := hinv.disciplined.committed key row hvisible (by simpa using hbaseline)
    rw [show row.optunaTrialNumber = number from hnumber] at hnegative
    omega
  · intro hsome
    cases found with
    | nil => cases hsome
    | cons x found => exact hfound x List.mem_cons_self

/-- A call of the optimizer. -/
theorem safe_optuna {o : OptunaOp}
    (hpermitted : ∀ w : ReplenishWorld T, Permitted cfg t w (.trial (.outside o))) :
    TrialSafe cfg ev t j (fun _ _ => True) (Program.perform (BesideOp.outside o)) w :=
  safe_quiet (o := .trial (.outside o)) hpermitted

theorem safe_tell (inputs : TrialInputs) (studyLoaded : Bool) {state : TrialState}
    (fault : Option TellFault) (hstate : state.isFinished = true) :
    TrialSafe cfg ev t j (fun _ _ => True) (tell inputs studyLoaded state fault) w :=
  safe_optuna fun _ => hstate

variable {delivery : Delivery} {number : ℕ}

theorem safe_reconstructFromOptuna (hdelivers : Delivers cfg delivery.inputs number)
    (objectiveKey : String) (state : TrialState) :
    TrialSafe cfg ev t j (fun _ => Recorded cfg number)
      (reconstructFromOptuna delivery objectiveKey state) w := by
  unfold reconstructFromOptuna
  split
  · trivial
  · rename_i row hrow
    obtain ⟨hstudy, hnumber⟩ := reconstructedRow_of hrow
    refine TrialSafe.seq (safe_raiseIfAny (Q := fun _ _ => True) trivial) fun _ w _ => ?_
    refine safe_createTrial (hstudy.trans hdelivers.study) (hnumber.trans hdelivers.number) ?_
    cases state with
    | waiting => cases hrow
    | running => cases hrow
    | _ => exact Option.some.inj hrow ▸ rfl

theorem safe_executeTrial (hdelivers : Delivers cfg delivery.inputs number)
    (objectiveKey : String) :
    TrialSafe cfg ev t j (fun _ => Recorded cfg number) (executeTrial ev delivery objectiveKey)
      w := by
  refine TrialSafe.seq (safe_raiseIfAny (Q := fun _ _ => True) trivial) fun _ w _ => ?_
  cases searchAndScore ev delivery.inputs objectiveKey with
  | error exc => trivial
  | ok result =>
    refine TrialSafe.seq (safe_tell _ _ _ rfl) fun answer w _ => ?_
    cases answer with
    | some message => trivial
    | none =>
      refine TrialSafe.seq (safe_raiseIfAny (Q := fun _ _ => True) trivial) fun _ w _ => ?_
      exact safe_createTrial hdelivers.study hdelivers.number rfl

/-- A delivery that returns has found the row or written it. -/
theorem safe_attemptTrial (hdelivers : Delivers cfg delivery.inputs number)
    (hstudy : delivery.faults.studyMissing = false) (hfresh : Fresh t w.records) :
    TrialSafe cfg ev t j (fun _ => Recorded cfg number) (attemptTrial ev delivery) w := by
  refine TrialSafe.seq (safe_raiseIfAny (Q := fun _ w => Fresh t w.records) hfresh)
    fun _ w hfresh => ?_
  simp only [hstudy, Bool.false_eq_true, if_false]
  rw [hdelivers.study, hdelivers.number]
  refine TrialSafe.seq (safe_existingTerminalAppRow hfresh) fun existing w hexisting => ?_
  cases existing with
  | some row => exact hexisting rfl
  | none =>
    refine TrialSafe.seq (safe_raiseIfAny (Q := fun _ _ => True) trivial) fun _ w _ => ?_
    cases Eval.objectiveMetricKey delivery.inputs.objective with
    | error e => trivial
    | ok objectiveKey =>
      refine TrialSafe.seq (safe_raiseIfAny (Q := fun _ _ => True) trivial) fun _ w _ => ?_
      refine TrialSafe.seq (safe_optuna fun _ => trivial) fun state w _ => ?_
      cases TrialState.isFinished state with
      | true => exact safe_reconstructFromOptuna hdelivers objectiveKey state
      | false => exact safe_executeTrial hdelivers objectiveKey

/-- The handler raises again, or writes the row. -/
theorem safe_recordFailure (hdelivers : Delivers cfg delivery.inputs number)
    (failure : TrialFailure) :
    TrialSafe cfg ev t j (fun _ => Recorded cfg number) (recordFailure delivery failure) w := by
  have hrecord : ∀ exc w, TrialSafe cfg ev t j (fun _ => Recorded cfg number) (do
      let _ ← tell delivery.inputs failure.studyLoaded .fail delivery.faults.tellFailFault
      raiseIfAny delivery.faults.recordRaises failure.studyLoaded false
      createTrial (failedRow delivery.inputs exc)) w := by
    intro exc w
    refine TrialSafe.seq (safe_tell _ _ _ rfl) fun _ w _ => ?_
    refine TrialSafe.seq (safe_raiseIfAny (Q := fun _ _ => True) trivial) fun _ w _ => ?_
    exact safe_createTrial hdelivers.study hdelivers.number rfl
  have hrollback : TrialSafe cfg ev t j (fun _ _ => True) (statement .rollback) w :=
    safe_quiet (o := .trial (.row .rollback)) fun _ => trivial
  refine TrialSafe.seq hrollback fun _ w _ => ?_
  cases failure.exc with
  | operational message => trivial
  | _ =>
    cases failure.tellSucceeded with
    | true => trivial
    | false => exact hrecord _ w

/-- A `run_trial` that returns has left the row of its trial. -/
theorem safe_runTrial (hdelivers : Delivers cfg delivery.inputs number)
    (hstudy : delivery.faults.studyMissing = false) (hfresh : Fresh t w.records) :
    TrialSafe cfg ev t j (fun _ => Recorded cfg number) (runTrial ev delivery) w := by
  have hbody : TrialSafe cfg ev t j (fun _ => Recorded cfg number)
      (tryCatch (attemptTrial ev delivery) (recordFailure delivery)) w :=
    TrialSafe.handle (safe_attemptTrial hdelivers hstudy hfresh) fun failure w =>
      safe_recordFailure hdelivers failure
  have hclose : ∀ (w : ReplenishWorld T), Recorded cfg number w →
      TrialSafe cfg ev t j (fun _ => Recorded cfg number) (statement .rollback) w := by
    intro w hrecorded
    refine safe_perform (o := .trial (.row .rollback)) (stable_recorded number) hrecorded
      (fun _ _ => trivial) fun w w' a hrecorded _ hexec => ?_
    obtain ⟨s, hstatement, rfl⟩ := exec_row hexec
    obtain ⟨rfl, -⟩ := Prod.mk.inj (Option.some.inj hstatement)
    exact hrecorded
  refine TrialSafe.handle (TrialSafe.seq hbody fun _ w hrecorded => ?_) fun e w => ?_
  · exact TrialSafe.seq (hclose w hrecorded) fun _ _ h => h
  · have hrollback : TrialSafe cfg ev t j (fun _ _ => True) (statement .rollback) w :=
      safe_quiet (o := .trial (.row .rollback)) fun _ => trivial
    exact TrialSafe.seq hrollback fun _ _ _ => trivial

/-- A job is dropped with its row, or lost. -/
theorem safe_deliver (hdelivers : Delivers cfg delivery.inputs number)
    (hstudy : delivery.faults.studyMissing = false) (hfresh : Fresh t w.records) :
    ReplenishSafe cfg ev t j (fun _ _ => True) (deliver ev delivery) w := by
  have hbody : ReplenishSafe cfg ev t j (fun _ _ => True) (do
      ofTrial (runTrial ev delivery)
      Program.perform (ReplenishOp.finish delivery.inputs.optunaTrialNumber.toNat false)) w := by
    refine Safe.seq (safe_runTrial hdelivers hstudy hfresh) fun _ w hrecorded => ?_
    rw [hdelivers.number, Int.toNat_natCast]
    exact safe_perform (stable_recorded number) hrecorded (fun _ h => h) fun _ _ _ _ _ _ => trivial
  exact Safe.handle (hbody.mono (fun _ _ h => h) fun _ _ _ =>
    safe_cleanUp (o := .finish _ true) fun _ => trivial)

end Worker

/-! ## Runs -/

/-- The contract is met by all jobs. -/
theorem replenishContract_met (cfg : ReplenishConfig) (ev : Eval.Evaluator) :
    (replenishContract T cfg).Met (replenishSystem T cfg ev) where
  code t j w _ hadm := by
    cases j with
    | tick run => exact safe_tick run
    | giveUp number => exact safe_quiet (o := .finish number true) fun _ => trivial
    | cancel =>
      have hcancel : ReplenishSafe cfg ev t .cancel (fun _ _ => True)
          (Program.perform (ReplenishOp.endStudy .cancelled)) (resetReplenish t w) :=
        safe_quiet fun _ => trivial
      exact Safe.seq hcancel fun _ _ _ => trivial
    | deliver delivery =>
      simp only [replenishSystem, Job.admitted, Bool.and_eq_true, decide_eq_true_eq,
        Bool.not_eq_true'] at hadm
      obtain ⟨⟨⟨hstudy, hnumber⟩, -⟩, hmissing⟩ := hadm
      have hdelivers : Delivers cfg delivery.inputs delivery.inputs.optunaTrialNumber.toNat :=
        ⟨hstudy, (Int.toNat_of_nonneg hnumber).symm⟩
      refine safe_deliver hdelivers hmissing ⟨fun _ => Store.held_rollback, fun _ => ?_⟩
      exact Store.identity_rollback
  reset _ _ _ hinv := guarantees_reset hinv

/-- No trial of the study is allocated, and no transaction is open on the table, whose
baseline rows have no number of the optimizer. -/
structure NotStarted (w : ReplenishWorld T) : Prop where
  allocated : w.allocated = 0
  unlocked : ∀ key, w.records.table.lock key = none
  known : ∀ key, (w.records.table.committed key).isSome → key ∈ w.records.table.keys
  baselines : ∀ key row, w.records.table.committed key = some row → GoodRow row

theorem NotStarted.consistent (cfg : ReplenishConfig) (h : NotStarted w) : Consistent cfg w where
  bounded maxTrials _ := by
    rw [h.allocated]
    exact Nat.zero_le maxTrials
  parallel := by
    simp [inFlight, ReplenishWorld.states, h.allocated]
  disciplined := Store.Disciplined.of_unlocked h.unlocked h.baselines
  keysKnown key row hrow := by
    have hcommitted := (Store.mem_versions_of_unlocked h.unlocked).mp hrow
    exact h.known key (Option.isSome_of_mem hcommitted)
  accounted number hnumber := by
    rw [h.allocated] at hnumber
    exact absurd hnumber (Nat.not_lt_zero number)

/-- The allocated trials are at most `max_trials`, and those in flight at most the
effective parallelism. -/
structure WithinBounds (cfg : ReplenishConfig) (w : ReplenishWorld T) : Prop where
  allocated : ∀ maxTrials, cfg.maxTrials = some maxTrials → w.allocated ≤ maxTrials
  inFlight : inFlight (w.states cfg) ≤ cfg.parallelism

/-- The bounds hold in every state that is reached from `w`. -/
def StaysWithinBounds (T : Type) [DecidableEq T] (cfg : ReplenishConfig) (ev : Eval.Evaluator)
    (w : ReplenishWorld T) : Prop :=
  ∀ c, (replenishSystem T cfg ev).Run (fun _ _ _ => True) (System.idle w) c →
    WithinBounds cfg c.world

/-- However the ticks of orchestrators, the jobs of workers and the deaths of processes
interleave, the bounds hold after every operation. -/
theorem top_ups_stay_within_bounds (cfg : ReplenishConfig) (ev : Eval.Evaluator)
    (hw : NotStarted w) : StaysWithinBounds T cfg ev w := by
  intro c hrun
  have hsound := (replenishContract_met cfg ev).run
    (Contract.sound_idle (hw.consistent cfg)) hrun
  exact ⟨hsound.1.bounded, hsound.1.parallel⟩

/-- A study of some trials, one at a time. -/
def oneAtATime (maxTrials : ℕ) : ReplenishConfig where
  studyId := 7
  maxTrials := some maxTrials
  parallelism := 1

/-- The study has just been started. -/
def startedStudy (T : Type) : ReplenishWorld T where
  status := .running
  records := nothingRecorded
  allocated := 0
  queue := []
  lock := none
  asked _ := none
  lost := []

omit [DecidableEq T] in
theorem startedStudy_notStarted : NotStarted (startedStudy T) where
  allocated := rfl
  unlocked _ := rfl
  known _ h := by cases h
  baselines _ _ h := by cases h

/-- The delivery of a trial of the study. -/
def deliveryOf (number : ℕ) : Delivery where
  inputs := { mrrTrial bothAnswered with trialId := number + 1, optunaTrialNumber := number }

/-- The allocated trials, those in flight, and the jobs. -/
def topUpState (c : Config ℕ Job (ReplenishWorld ℕ) ReplenishOp ReplenishOp.Res ReplenishError) :
    ℕ × ℕ × List ℕ :=
  (c.world.allocated, inFlight (c.world.states (oneAtATime 2)), c.world.queue)

/-- Of two ticks that overlap one takes the lock and allocates the first trial; after a
worker has run it a third one allocates the second trial. -/
theorem top_ups_stay_within_bounds_oneAtATime :
    StaysWithinBounds ℕ (oneAtATime 2) rrEvaluator (startedStudy ℕ) ∧
      ∃ c, (replenishSystem ℕ (oneAtATime 2) rrEvaluator).Run (fun _ _ _ => True)
          (System.idle (startedStudy ℕ)) c ∧ topUpState c = (2, 1, [1]) := by
  refine ⟨top_ups_stay_within_bounds (oneAtATime 2) rrEvaluator startedStudy_notStarted, ?_⟩
  have hrun : (((replenishSystem ℕ (oneAtATime 2) rrEvaluator).guard fun _ _ _ => true).schedule
      (System.idle (startedStudy ℕ))
      ([.start 0 (.tick {}), .start 1 (.tick {})] ++ List.replicate 10 (.call 0) ++
        List.replicate 6 (.call 1) ++ [.call 0, .call 0, .start 2 (.deliver (deliveryOf 0))] ++
        List.replicate 7 (.call 2) ++ [.stop 1, .start 1 (.tick {})] ++
        List.replicate 12 (.call 1))).map topUpState = some (2, 1, [1]) := by decide +kernel
  obtain ⟨c, hc, hstate⟩ := Option.map_eq_some_iff.mp hrun
  exact ⟨c, System.run_of_guarded _ (fun _ _ _ _ => trivial) hc, hstate⟩

/-! ## The last job -/

theorem terminalCount_eq (rows : List Trial) (studyId : ℕ) :
    terminalCount rows studyId = (optunaTrials rows studyId).length := by
  have hcount : ∀ trials : List Trial, countStatus trials .complete + countStatus trials .failed +
      countStatus trials .pruned = trials.length := by
    intro trials
    induction trials with
    | nil => rfl
    | cons trial trials ih =>
      simp only [countStatus, List.countP_cons, List.length_cons] at ih ⊢
      cases trial.status <;> simp <;> omega
  exact hcount _

/-- As many trials with rows as `max_trials` satisfy the stop condition. -/
theorem maxTrialsReached_of_rows {maxTrials : ℕ} (hmax : cfg.maxTrials = some maxTrials)
    (hinv : Consistent cfg w) (hrows : ∀ number < maxTrials, Recorded cfg number w) :
    maxTrialsReached cfg w.rows = true := by
  have hnumbers : List.range maxTrials ⊆
      (optunaTrials w.rows cfg.studyId).map fun row => row.optunaTrialNumber.toNat := by
    intro number hnumber
    obtain ⟨key, row, hrow, hstudy, hrowNumber, hbaseline⟩ :=
      hrows number (List.mem_range.mp hnumber)
    have hkey := hinv.keysKnown key row (Store.mem_versions.mpr (Or.inl hrow))
    have hmem : row ∈ w.rows := List.mem_filterMap.mpr ⟨key, hkey, hrow⟩
    refine List.mem_map.mpr ⟨row, List.mem_filter.mpr ⟨hmem, ?_⟩, ?_⟩
    · simp [hstudy, hbaseline]
    · rw [hrowNumber, Int.toNat_natCast]
  have hlength := (List.subperm_of_subset List.nodup_range hnumbers).length_le
  rw [List.length_range, List.length_map] at hlength
  simpa [maxTrialsReached, hmax, terminalCount_eq] using hlength

/-- The study is running, all its trials are allocated, and none has a job, queued or
executing. -/
structure AllJobsEnded (cfg : ReplenishConfig) (w : ReplenishWorld T) : Prop where
  running : w.status = .running
  allocated : cfg.maxTrials = some w.allocated
  queue : w.queue = []

/-- In every run from `w` and every state of it in which all jobs have ended and `cond`
holds, a tick that reads the rows from then on finds the `max_trials` stop condition
satisfied. -/
def LastJobStops (T : Type) [DecidableEq T] (cfg : ReplenishConfig) (ev : Eval.Evaluator)
    (cond : ReplenishWorld T → Prop) (w : ReplenishWorld T) : Prop :=
  ∀ c c', (replenishSystem T cfg ev).Run (fun _ _ _ => True) (System.idle w) c →
    (replenishSystem T cfg ev).Run (fun _ _ _ => True) c c' → AllJobsEnded cfg c.world →
    cond c.world → maxTrialsReached cfg c'.world.rows = true

/-- No orchestrator is between an `ask` and its `enqueue_job`, none has ended there, and
no job has ended with an exception. -/
structure NothingLost (w : ReplenishWorld T) : Prop where
  asked : ∀ t, w.asked t = none
  lost : w.lost = []

/-- When nothing is lost, the last job leaves the stop condition satisfied: workers may
die anywhere, and orchestrators anywhere but between `ask` and `enqueue_job`. -/
theorem last_job_stops (cfg : ReplenishConfig) (ev : Eval.Evaluator) (hw : NotStarted w) :
    LastJobStops T cfg ev NothingLost w := by
  intro c c' hrun hrun' hended hnothing
  have hmet := replenishContract_met (T := T) cfg ev
  have hsound := hmet.run (Contract.sound_idle (hw.consistent cfg)) hrun
  have hsound' := hmet.run hsound hrun'
  have hrows : ∀ number < c.world.allocated, Recorded cfg number c.world := by
    intro number hnumber
    rcases hsound.1.accounted number hnumber with hrow | hqueued | ⟨t, hasked⟩ | hlost
    · exact hrow
    · rw [hended.queue] at hqueued
      cases hqueued
    · rw [hnothing.asked t] at hasked
      cases hasked
    · rw [hnothing.lost] at hlost
      cases hlost
  have hkept := hmet.run_keeps (P := fun w => ∀ number < c.world.allocated, Recorded cfg number w)
    (fun _ _ _ hchange h number hnumber => (h number hnumber).mono hchange) hsound hrows hrun'
  exact maxTrialsReached_of_rows hended.allocated hsound'.1 hkept

/-- The status, the allocated trials, the jobs, what processes have asked for, and the
losses. -/
def lossState
    (c : Config (Fin 2) Job (ReplenishWorld (Fin 2)) ReplenishOp ReplenishOp.Res ReplenishError) :
    (StudyStatus × ℕ × List ℕ) × (List (Option ℕ) × List ℕ) :=
  ((c.world.status, c.world.allocated, c.world.queue),
    ([c.world.asked 0, c.world.asked 1], c.world.lost))

/-- An orchestrator dies after it has enqueued the trial, and a worker after it has told
the optimizer; the job is executed again. -/
theorem last_job_stops_afterCrashes :
    LastJobStops (Fin 2) (oneAtATime 1) rrEvaluator NothingLost (startedStudy (Fin 2)) ∧
      ∃ c, (replenishSystem (Fin 2) (oneAtATime 1) rrEvaluator).Run (fun _ _ _ => True)
          (System.idle (startedStudy (Fin 2))) c ∧
        AllJobsEnded (oneAtATime 1) c.world ∧ NothingLost c.world := by
  refine ⟨last_job_stops (oneAtATime 1) rrEvaluator startedStudy_notStarted, ?_⟩
  have hrun : (((replenishSystem (Fin 2) (oneAtATime 1) rrEvaluator).guard
      fun _ _ _ => true).schedule (System.idle (startedStudy (Fin 2)))
      ([.start 0 (.tick {})] ++ List.replicate 10 (.call 0) ++ [.stop 0] ++
        [.start 1 (.deliver (deliveryOf 0)), .call 1, .call 1, .call 1, .stop 1] ++
        [.start 1 (.deliver (deliveryOf 0))] ++ List.replicate 6 (.call 1))).map lossState =
      some ((.running, 1, []), ([none, none], [])) := by decide +kernel
  obtain ⟨c, hc, hstate⟩ := Option.map_eq_some_iff.mp hrun
  obtain ⟨hended, hlosses⟩ := Prod.mk.inj hstate
  obtain ⟨hstatus, hrest⟩ := Prod.mk.inj hended
  obtain ⟨hallocated, hqueue⟩ := Prod.mk.inj hrest
  obtain ⟨hasked, hlost⟩ := Prod.mk.inj hlosses
  refine ⟨c, System.run_of_guarded _ (fun _ _ _ _ => trivial) hc, ⟨hstatus, ?_, hqueue⟩, ?_, hlost⟩
  · rw [hallocated]
    rfl
  · intro t
    obtain ⟨hfirst, hrest⟩ := List.cons.inj hasked
    obtain ⟨hsecond, -⟩ := List.cons.inj hrest
    rcases Fin.exists_fin_two.mp ⟨t, rfl⟩ with h | h
    · rwa [h]
    · rwa [h]

/-- An orchestrator dies between `ask` and `enqueue_job`: its trial is allocated, has no
job, and will never have a row. -/
theorem orphan_never_stops :
    ¬LastJobStops (Fin 2) (oneAtATime 1) rrEvaluator (fun _ => True) (startedStudy (Fin 2)) := by
  have hrun : (((replenishSystem (Fin 2) (oneAtATime 1) rrEvaluator).guard
      fun _ _ _ => true).schedule (System.idle (startedStudy (Fin 2)))
      ([.start 0 (.tick {})] ++ List.replicate 9 (.call 0) ++ [.stop 0])).map (fun c =>
        ((c.world.status, c.world.allocated, c.world.queue),
          maxTrialsReached (oneAtATime 1) c.world.rows)) =
      some ((.running, 1, []), false) := by decide +kernel
  obtain ⟨c, hc, hstate⟩ := Option.map_eq_some_iff.mp hrun
  obtain ⟨hended, hreached⟩ := Prod.mk.inj hstate
  obtain ⟨hstatus, hrest⟩ := Prod.mk.inj hended
  obtain ⟨hallocated, hqueue⟩ := Prod.mk.inj hrest
  have hallJobsEnded : AllJobsEnded (oneAtATime 1) c.world := by
    refine ⟨hstatus, ?_, hqueue⟩
    rw [hallocated]
    rfl
  intro hstops
  have hstop := hstops c c (System.run_of_guarded _ (fun _ _ _ _ => trivial) hc)
    Relation.ReflTransGen.refl hallJobsEnded trivial
  rw [hreached] at hstop
  cases hstop

end RelyLoop.Trials.Replenish
