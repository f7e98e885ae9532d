import RelyLoop.Judgments.CallerSafety

/-!
# Which worker a judgment list gets

A list belongs to the UBI worker when its generation parameters say so, and to
the LLM worker otherwise. Dispatch and the boot sweep look at the parameters; the
resume tick does not, so the routing holds in the runs in which it meets no UBI
list.
-/

namespace RelyLoop.Judgments

open Concurrency Store

/-- The job is of the worker that the list belongs to. -/
def RoutedTo {T : Type} (s : Store T ℕ JudgmentList) (worker : Worker) (k : ℕ) : Prop :=
  ∃ row, s.committed k = some row ∧ worker = routedWorker row

/-- Every enqueued job is of the worker that its list belongs to. -/
def RoutedQueue {T : Type} (s : Store T ℕ JudgmentList) (queue : Queue) : Prop :=
  ∀ worker k, (worker, k) ∈ queue → RoutedTo s worker k

/-- A delivery runs the worker that its list belongs to. -/
def DeliversOwn {T : Type} (j : Job) (w : Beside T ℕ JudgmentList Queue) : Prop :=
  ∀ worker k, j.delivery = some (worker, k) → RoutedTo w.table worker k

/-- A resume tick enqueues no UBI list, and a boot sweep no list with generation
parameters of another kind. -/
def SweepsMeetOwnLists {T : Type} (_ : T) (w : Beside T ℕ JudgmentList Queue) :
    BesideOp ℕ JudgmentList QueueOp → Prop
  | .row _ => True
  | .outside (.enqueue caller _ k) => ∀ row, w.table.committed k = some row →
    match caller with
    | .dispatch => True
    | .onStartup => row.generationParams.isSome → row.isUbi
    | .resumeTick => row.isUbi = false

theorem routedWorker_congr {r r' : JudgmentList} (h : r'.generationParams = r.generationParams) :
    routedWorker r' = routedWorker r := by
  unfold routedWorker JudgmentList.isUbi
  rw [h]

/-- A list with kept parameters keeps its worker. -/
theorem RoutedTo.evolves {T : Type} {s s' : Store T ℕ JudgmentList} {worker : Worker} {k : ℕ}
    (h : RoutedTo s worker k) (hkeep : ∀ r, s.committed k = some r →
      ∃ r', s'.committed k = some r' ∧ r'.generationParams = r.generationParams) :
    RoutedTo s' worker k := by
  obtain ⟨row, hrow, hworker⟩ := h
  obtain ⟨row', hrow', hparams⟩ := hkeep row hrow
  exact ⟨row', hrow', hworker.trans (routedWorker_congr hparams).symm⟩

/-- The generation parameters are kept, and the queue is routed. -/
def routing (T : Type) [DecidableEq T] : JudgmentDiscipline T where
  Rel r r' := r'.generationParams = r.generationParams
  Good _ := True
  touches j k := ∃ worker, j.delivery = some (worker, k)
  Link := RoutedQueue
  Grows _ _ := True
  cond := SweepsMeetOwnLists
  rel_refl _ := rfl
  rel_trans _ _ _ h h' := h'.trans h
  grows_refl _ := trivial
  grows_trans _ _ _ _ _ := trivial
  link_rollback _ _ _ h := h

/-- Under the condition every caller chooses the worker that the list belongs to. -/
theorem chosenWorker_eq_routedWorker {T : Type} {t : T} {w : Beside T ℕ JudgmentList Queue}
    {caller : Caller} {k : ℕ} {row : JudgmentList} (hrow : w.table.committed k = some row)
    (hcond : SweepsMeetOwnLists t w (.outside (.enqueue caller (chosenWorker caller row) k))) :
    chosenWorker caller row = routedWorker row := by
  have hmeets := hcond row hrow
  cases caller with
  | dispatch => rfl
  | resumeTick => simp [chosenWorker, routedWorker, show row.isUbi = false from hmeets]
  | onStartup =>
    have hkind : row.generationParams.isSome → row.isUbi := hmeets
    cases hparams : row.generationParams with
    | none => simp [chosenWorker, routedWorker, JudgmentList.isUbi, hparams]
    | some params =>
      have hubi := hkind (by simp [hparams])
      simp [chosenWorker, routedWorker, hparams, hubi]

variable {T : Type} [DecidableEq T]

theorem routing_suits : Suits (routing T) where
  params _ _ h := h
  calibrated _ _ := ⟨rfl, rfl, fun h => h⟩
  flushed _ _ _ _ _ _ _ _ _ _ _ _ := ⟨trivial, rfl⟩
  inserted _ := trivial
  touched _ worker _ h := ⟨worker, h⟩
  linked _ _ _ hevolves h worker k hmem := (h worker k hmem).evolves (hevolves k)
  enqueued t w caller k row hrow hcond h := by
    refine ⟨fun worker' k' hmem => ?_, trivial⟩
    rcases List.mem_append.mp hmem with hold | hnew
    · exact h worker' k' hold
    · obtain ⟨rfl, rfl⟩ := Prod.mk.inj (List.mem_singleton.mp hnew)
      exact ⟨row, hrow, chosenWorker_eq_routedWorker (t := t) hrow hcond⟩

/-! ## Runs -/

/-- In every run from idle processes on `w` whose operations meet `cond`, a list
is enqueued to, processed by, and finalized by the worker that it belongs to. -/
def ListsKeepTheirWorker (T : Type) [DecidableEq T]
    (cond : T → Beside T ℕ JudgmentList Queue → BesideOp ℕ JudgmentList QueueOp → Prop)
    (w : Beside T ℕ JudgmentList Queue) : Prop :=
  ∀ c, (judgmentSystem T).Run cond (System.idle w) c →
    RoutedQueue c.world.table c.world.outside ∧
    (∀ t j p, c.task t = some (j, p) → DeliversOwn j c.world) ∧
    ∀ c', (judgmentSystem T).Step cond c c' → ∀ k r r', c.world.table.committed k = some r →
      c'.world.table.committed k = some r' → r'.status ≠ r.status →
      ∃ t j p, c.task t = some (j, p) ∧ j.delivery = some (routedWorker r, k)

/-- When the sweeps meet only lists of the worker that they enqueue, every list
keeps its worker. -/
theorem lists_keep_their_worker {w : Beside T ℕ JudgmentList Queue}
    (hunlocked : ∀ k, w.table.lock k = none) (hqueue : RoutedQueue w.table w.outside) :
    ListsKeepTheirWorker T SweepsMeetOwnLists w := by
  have hmet := (routing_suits (T := T)).met
  have hinv : (routing T).contract.inv w :=
    ⟨Disciplined.of_unlocked hunlocked fun _ _ _ => trivial, hqueue⟩
  intro c hrun
  have hsound := hmet.run (Contract.sound_idle hinv) hrun
  have hprocessed : ∀ t j p, c.task t = some (j, p) → DeliversOwn j c.world := by
    refine hmet.run_jobs (fun t j w hinv hadm worker k hj => ?_)
      (fun _ j w w' hchange h worker k hj => (h worker k hj).evolves fun r hr => ?_)
      (Contract.sound_idle hinv) (fun _ _ _ h => by cases h) hrun
    · have hmem : (worker, k) ∈ w.outside := by
        have hadmitted : j.delivery.all fun delivery => delivery ∈ w.outside := hadm
        simpa [hj] using hadmitted
      exact hinv.2 worker k hmem
    · obtain ⟨r', hr', hparams, -⟩ := hchange k r hr
      exact ⟨r', hr', hparams⟩
  refine ⟨hsound.1.2, hprocessed, ?_⟩
  intro c' hstep k r r' hr hr' hstatus
  have hsteps := hmet.step hsound hstep
  obtain ⟨-, t, j, hchange, ⟨p, hp⟩ | hreset⟩ := hsteps
  · obtain ⟨r₁, hr₁, -, hsame | ⟨worker, hj⟩⟩ := hchange k r hr
    · obtain rfl : r₁ = r' := Option.some.inj (hr₁.symm.trans hr')
      exact absurd (congrArg JudgmentList.status hsame) hstatus
    · obtain ⟨row, hrow, hworker⟩ := hprocessed t j p hp worker k hj
      obtain rfl : row = r := Option.some.inj (hrow.symm.trans hr)
      exact ⟨t, j, p, hp, hworker ▸ hj⟩
  · have hkept : c'.world.table.committed k = some r := by
      rw [hreset]
      exact hr
    obtain rfl : r = r' := Option.some.inj (hkept.symm.trans hr')
    exact absurd rfl hstatus

/-- `SweepsMeetOwnLists`, decided. -/
def sweepsMeetOwnLists {T : Type} (_ : T) (w : Beside T ℕ JudgmentList Queue) :
    BesideOp ℕ JudgmentList QueueOp → Bool
  | .row _ => true
  | .outside (.enqueue caller _ k) => (w.table.committed k).all fun row =>
    match caller with
    | .dispatch => true
    | .onStartup => !row.generationParams.isSome || row.isUbi
    | .resumeTick => !row.isUbi

theorem sweepsMeetOwnLists_spec {T : Type} (t : T) (w : Beside T ℕ JudgmentList Queue)
    (o : BesideOp ℕ JudgmentList QueueOp) (h : sweepsMeetOwnLists t w o = true) :
    SweepsMeetOwnLists t w o := by
  cases o with
  | row o => trivial
  | outside o =>
    obtain ⟨caller, worker, k⟩ := o
    intro row hrow
    cases caller with
    | dispatch => trivial
    | onStartup =>
      intro hsome
      have hcases : row.generationParams = none ∨ row.isUbi = true := by
        simpa [sweepsMeetOwnLists, hrow] using h
      exact hcases.resolve_left (Option.isSome_iff_ne_none.mp hsome)
    | resumeTick => simpa [sweepsMeetOwnLists, hrow] using h

/-- An empty table and an empty queue. -/
def noLists : Beside ℕ ℕ JudgmentList Queue where
  table :=
    { keys := []
      committed := fun _ => none
      lock := fun _ => none
      identity := fun _ _ => none }
  outside := []

/-- The order in which the lists were created. -/
def byId (x y : ℕ × JudgmentList) : Bool := x.1 ≤ y.1

/-- The queue and the committed status of a list. -/
def queueAndStatus (c : Config ℕ Job (Beside ℕ ℕ JudgmentList Queue)
    (BesideOp ℕ JudgmentList QueueOp) (BesideOp.Res fun _ => Unit) JudgmentError)
    (judgmentListId : ℕ) : Queue × Option JudgmentListStatus :=
  (c.world.outside, (c.world.table.committed judgmentListId).map JudgmentList.status)

/-- A UBI list and an LLM list, both dispatched and enqueued again at boot. -/
theorem lists_keep_their_worker_atBoot :
    ListsKeepTheirWorker ℕ SweepsMeetOwnLists noLists ∧
      ∃ c, (judgmentSystem ℕ).Run SweepsMeetOwnLists (System.idle noLists) c ∧
        queueAndStatus c 0 = ([(.generateJudgmentsFromUbi, 0), (.generateJudgmentsLlm, 1),
          (.generateJudgmentsFromUbi, 0), (.generateJudgmentsLlm, 1)], some .generating) := by
  refine ⟨lists_keep_their_worker (fun _ => rfl) fun _ _ h => absurd h List.not_mem_nil, ?_⟩
  have hrun : ((((judgmentSystem ℕ).guard sweepsMeetOwnLists).schedule (System.idle noLists)
      ([.start 0 (.startUbi 0 false true), .call 0, .call 0, .call 0,
        .start 1 (.startLlm 1 false true), .call 1, .call 1, .call 1,
        .start 2 (.onStartup byId)] ++ List.replicate 7 (.call 2))).map
          fun c => queueAndStatus c 0) =
      some ([(.generateJudgmentsFromUbi, 0), (.generateJudgmentsLlm, 1),
        (.generateJudgmentsFromUbi, 0), (.generateJudgmentsLlm, 1)], some .generating) := by decide
  obtain ⟨c, hc, hqueue⟩ := Option.map_eq_some_iff.mp hrun
  exact ⟨c, (judgmentSystem ℕ).run_of_guarded sweepsMeetOwnLists_spec hc, hqueue⟩

/-- Without the condition a resume tick that meets a UBI list, still generating,
enqueues the LLM worker for it. -/
theorem tick_enqueues_llm_for_ubi :
    ¬ ListsKeepTheirWorker ℕ (fun _ _ _ => True) noLists := by
  have hrun : ((((judgmentSystem ℕ).guard fun _ _ _ => true).schedule (System.idle noLists)
      [.start 0 (.startUbi 0 false true), .call 0, .call 0, .call 0,
        .start 1 (.resume byId fun _ => true), .call 1, .call 1, .call 1]).map fun c =>
          (c.world.outside, (c.world.table.committed 0).map routedWorker)) =
      some ([(.generateJudgmentsFromUbi, 0), (.generateJudgmentsLlm, 0)],
        some .generateJudgmentsFromUbi) := by decide
  obtain ⟨c, hc, hstate⟩ := Option.map_eq_some_iff.mp hrun
  obtain ⟨hqueue, hworker⟩ := Prod.mk.inj hstate
  intro hkeep
  obtain ⟨hrouted, -⟩ := hkeep c ((judgmentSystem ℕ).run_of_guarded (fun _ _ _ _ => trivial) hc)
  obtain ⟨row, hrow, hown⟩ := hrouted .generateJudgmentsLlm 0 (by simp [hqueue])
  simp [hrow, ← hown] at hworker

end RelyLoop.Judgments
