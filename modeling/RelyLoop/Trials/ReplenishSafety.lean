import RelyLoop.Concurrency.RelyGuarantee
import RelyLoop.Trials.Agreement
import RelyLoop.Trials.Replenish

/-!
# The top-up keeps its bounds, and every trial is accounted for

Only the owner of the advisory lock allocates trials, and while it holds the lock the
others can only finish some. An allocated trial has its row, or its job, or a process
that is about to enqueue the job, or it is lost.
-/

namespace RelyLoop.Trials.Replenish

open Concurrency Studies

variable {cfg : ReplenishConfig}

/-! ## The states of the trials -/

/-- The trials that are not finished. -/
def inFlight (states : List TrialState) : ℕ := states.countP fun state => !state.isFinished

/-- Where the trials of the study have changed, they are finished. -/
def OnlyFinishes (cfg : ReplenishConfig) (optuna optuna' : Optuna) : Prop :=
  ∀ number, optuna' cfg.studyId number = optuna cfg.studyId number ∨
    (optuna' cfg.studyId number).isFinished = true

theorem OnlyFinishes.refl (optuna : Optuna) : OnlyFinishes cfg optuna optuna :=
  fun _ => Or.inl rfl

theorem OnlyFinishes.trans {o₁ o₂ o₃ : Optuna} (h : OnlyFinishes cfg o₁ o₂)
    (h' : OnlyFinishes cfg o₂ o₃) : OnlyFinishes cfg o₁ o₃ := by
  intro number
  rcases h' number with hsame | hfinished
  · rw [hsame]
    exact h number
  · exact Or.inr hfinished

/-- A `tell` of a finished state only finishes trials. -/
theorem onlyFinishes_exec {optuna optuna' : Optuna} {o : OptunaOp} {a : o.Res}
    (ho : ∀ studyLoaded studyId number state fault,
      o = .tell studyLoaded studyId number state fault → state.isFinished = true)
    (h : execOptuna optuna o = some (optuna', a)) : OnlyFinishes cfg optuna optuna' := by
  cases o with
  | snapshot studyId number =>
    obtain ⟨rfl, -⟩ := Prod.mk.inj (Option.some.inj h)
    exact OnlyFinishes.refl _
  | tell studyLoaded studyId number state fault =>
    have hstate := ho _ _ _ _ _ rfl
    rcases execOptuna_tell h with ⟨rfl, -⟩ | ⟨-, rfl⟩
    · exact OnlyFinishes.refl _
    · intro number'
      unfold Optuna.update
      split
      · exact Or.inr hstate
      · exact Or.inl rfl

variable {T : Type} [DecidableEq T] {t t' : T} {w w' : ReplenishWorld T}

omit [DecidableEq T] in
/-- There are fewer and fewer trials in a state that is not finished. -/
theorem countP_states_le {p : TrialState → Bool}
    (hp : ∀ state, p state = true → state.isFinished = false)
    (halloc : w'.allocated = w.allocated)
    (h : OnlyFinishes cfg w.records.outside w'.records.outside) :
    (w'.states cfg).countP p ≤ (w.states cfg).countP p := by
  unfold ReplenishWorld.states
  rw [halloc, List.countP_map, List.countP_map]
  refine List.countP_mono_left fun number _ hnumber => ?_
  have hunfinished := hp _ hnumber
  rcases h number with hsame | hfinished
  · simpa [Function.comp, hsame] using hnumber
  · rw [hfinished] at hunfinished
    cases hunfinished

theorem inFlight_eq (states : List TrialState) :
    inFlight states = states.countP (fun state => state = .running) +
      states.countP (fun state => state = .waiting) := by
  induction states with
  | nil => rfl
  | cons state states ih =>
    unfold inFlight at *
    rw [List.countP_cons, List.countP_cons, List.countP_cons, ih]
    cases state <;> simp [TrialState.isFinished] <;> omega

omit [DecidableEq T] in
/-- A new trial is in flight. -/
theorem states_ask : (({ w with
      records := ⟨w.records.table,
        w.records.outside.update cfg.studyId w.allocated .running⟩
      allocated := w.allocated + 1 } : ReplenishWorld T).states cfg) =
    w.states cfg ++ [.running] := by
  unfold ReplenishWorld.states
  rw [List.range_succ, List.map_append]
  congr 1
  · refine List.map_congr_left fun number hnumber => ?_
    have hne : (number : ℤ) ≠ w.allocated := by
      have hlt := List.mem_range.mp hnumber
      omega
    simp [Optuna.update, hne]
  · simp [Optuna.update]

/-! ## The rows -/

/-- Baseline rows have no number of the optimizer. -/
def GoodRow (row : Trial) : Prop := row.isBaseline = true → row.optunaTrialNumber < 0

/-- The trial has its row. -/
def HasRow (cfg : ReplenishConfig) (table : Store T ℕ Trial) (number : ℕ) : Prop :=
  ∃ key row, table.committed key = some row ∧ row.studyId = cfg.studyId ∧
    row.optunaTrialNumber = number ∧ row.isBaseline = false

/-- Committed rows are kept. -/
def KeepsRows (table table' : Store T ℕ Trial) : Prop :=
  ∀ key row, table.committed key = some row → table'.committed key = some row

omit [DecidableEq T] in
theorem HasRow.mono {table table' : Store T ℕ Trial} {number : ℕ} (h : HasRow cfg table number)
    (hkeep : KeepsRows table table') : HasRow cfg table' number := by
  obtain ⟨key, row, hrow, hrest⟩ := h
  exact ⟨key, row, hkeep key row hrow, hrest⟩

/-- A trial with its row or its job, one that a process is about to enqueue, or a lost one. -/
def Accounted (cfg : ReplenishConfig) (w : ReplenishWorld T) (number : ℕ) : Prop :=
  HasRow cfg w.records.table number ∨ number ∈ w.queue ∨ (∃ t, w.asked t = some number) ∨
    number ∈ w.lost

/-- The bounds hold, and every allocated trial is accounted for. -/
structure Consistent (cfg : ReplenishConfig) (w : ReplenishWorld T) : Prop where
  bounded : ∀ maxTrials, cfg.maxTrials = some maxTrials → w.allocated ≤ maxTrials
  parallel : inFlight (w.states cfg) ≤ cfg.parallelism
  disciplined : w.records.table.Disciplined Eq GoodRow
  keysKnown : w.records.table.KeysKnown
  accounted : ∀ number < w.allocated, Accounted cfg w number

/-- What the contract asks of an operation. -/
def Permitted (cfg : ReplenishConfig) (t : T) (w : ReplenishWorld T) : ReplenishOp → Prop
  | .trial (.row (.insert _ row)) => GoodRow row
  | .trial (.row (.update _ _)) => False
  | .trial (.row (.updateWhere _ _ _)) => False
  | .trial (.outside (.tell _ _ _ state _)) => state.isFinished = true
  | .ask => w.lock = some t ∧ (∀ maxTrials, cfg.maxTrials = some maxTrials →
      w.allocated < maxTrials) ∧ inFlight (w.states cfg) < cfg.parallelism
  | .finish number false => HasRow cfg w.records.table number
  | _ => True

/-- While a process holds the lock the others allocate nothing. -/
def HoldsLock (cfg : ReplenishConfig) (t : T) (w w' : ReplenishWorld T) : Prop :=
  w.lock = some t → w'.lock = some t ∧ w'.allocated = w.allocated ∧
    OnlyFinishes cfg w.records.outside w'.records.outside

/-- What a process relies on. -/
def ReplenishRely (cfg : ReplenishConfig) (t : T) (w w' : ReplenishWorld T) : Prop :=
  Store.Frame t w.records.table w'.records.table ∧
    KeepsRows w.records.table w'.records.table ∧ HoldsLock cfg t w w'

/-- The contract of the jobs. -/
def replenishContract (T : Type) [DecidableEq T] (cfg : ReplenishConfig) :
    Contract T Job (ReplenishWorld T) ReplenishOp where
  inv := Consistent cfg
  change _ w w' := KeepsRows w.records.table w'.records.table
  rely := ReplenishRely cfg
  cond _ _ _ := True
  rely_refl t w := ⟨Store.Frame.refl t _, fun _ _ h => h,
    fun h => ⟨h, rfl, OnlyFinishes.refl _⟩⟩
  rely_trans t w₁ w₂ w₃ h h' := by
    refine ⟨h.1.trans h'.1, fun key row hrow => h'.2.1 key row (h.2.1 key row hrow), fun hlock => ?_⟩
    obtain ⟨hlock₂, halloc₂, hfinishes₂⟩ := h.2.2 hlock
    obtain ⟨hlock₃, halloc₃, hfinishes₃⟩ := h'.2.2 hlock₂
    exact ⟨hlock₃, halloc₃.trans halloc₂, hfinishes₂.trans hfinishes₃⟩

/-! ## Operations -/

variable {j : Job}

/-- An operation that leaves the bounds alone. -/
theorem guarantees_of_same (hinv : Consistent cfg w)
    (hrecords : w'.records = w.records) (halloc : w'.allocated = w.allocated)
    (hlock : ∀ t', t' ≠ t → w.lock = some t' → w'.lock = some t')
    (haccounted : ∀ number < w.allocated, Accounted cfg w' number) :
    (replenishContract T cfg).Guarantees t j w w' := by
  have hstates : w'.states cfg = w.states cfg := by
    simp only [ReplenishWorld.states, hrecords, halloc]
  refine ⟨⟨?_, ?_, ?_, ?_, ?_⟩, ?_, fun t' hne => ⟨?_, ?_, fun h => ⟨hlock t' hne h, halloc, ?_⟩⟩⟩
  · rw [halloc]
    exact hinv.bounded
  · rw [hstates]
    exact hinv.parallel
  · rw [hrecords]
    exact hinv.disciplined
  · rw [hrecords]
    exact hinv.keysKnown
  · rw [halloc]
    exact haccounted
  · exact fun key row hrow => by rwa [hrecords]
  · rw [hrecords]
    exact Store.Frame.refl t' _
  · exact fun key row hrow => by rwa [hrecords]
  · rw [hrecords]
    exact OnlyFinishes.refl _

/-- An operation of `run_trial`. -/
theorem guarantees_trial {o : BesideOp ℕ Trial OptunaOp} {records : Beside T ℕ Trial Optuna}
    {a : o.Res OptunaOp.Res} (hinv : Consistent cfg w) (hpermitted : Permitted cfg t w (.trial o))
    (hexec : execTrial t w.records o = some (records, a)) :
    (replenishContract T cfg).Guarantees t j w { w with records := records } := by
  have hsound : records.table.Disciplined Eq GoodRow ∧ records.table.KeysKnown ∧
      KeepsRows w.records.table records.table ∧
      (∀ t', t' ≠ t → Store.Frame t' w.records.table records.table) ∧
      OnlyFinishes cfg w.records.outside records.outside := by
    cases o with
    | row o =>
      obtain ⟨⟨s, a'⟩, hstatement, heq⟩ := Option.map_eq_some_iff.mp hexec
      obtain ⟨rfl, -⟩ := Prod.mk.inj heq
      have hallowed : w.records.table.Allowed Eq GoodRow t o := by
        cases o with
        | insert key row => exact hpermitted
        | update key f => exact hpermitted.elim
        | updateWhere key p f => exact hpermitted.elim
        | _ => trivial
      obtain ⟨hdisciplined, hchanges⟩ := hinv.disciplined.exec hallowed hstatement
      refine ⟨hdisciplined, hinv.keysKnown.exec hstatement, fun key row hrow => ?_,
        fun t' hne => Store.exec_frame hstatement hne, OnlyFinishes.refl _⟩
      obtain ⟨row', hrow', hsame | hsame⟩ := hchanges key row hrow
      · rw [hrow', hsame]
      · rw [hrow', hsame]
    | outside o =>
      obtain ⟨⟨optuna, a'⟩, hcall, heq⟩ := Option.map_eq_some_iff.mp hexec
      obtain ⟨rfl, -⟩ := Prod.mk.inj heq
      refine ⟨hinv.disciplined, hinv.keysKnown, fun _ _ h => h,
        fun t' _ => Store.Frame.refl t' _, onlyFinishes_exec ?_ hcall⟩
      rintro studyLoaded studyId number state fault rfl
      exact hpermitted
  obtain ⟨hdisciplined, hkeys, hkeep, hframe, hfinishes⟩ := hsound
  refine ⟨⟨hinv.bounded, ?_, hdisciplined, hkeys, fun number hnumber => ?_⟩, hkeep,
    fun t' hne => ⟨hframe t' hne, hkeep, fun hlock => ⟨hlock, rfl, hfinishes⟩⟩⟩
  · have hfewer : inFlight (ReplenishWorld.states cfg { w with records := records }) ≤
        inFlight (w.states cfg) :=
      countP_states_le (fun state h => by simpa using h) rfl hfinishes
    exact hfewer.trans hinv.parallel
  · rcases hinv.accounted number hnumber with hrow | hrest
    · exact Or.inl (hrow.mono hkeep)
    · exact Or.inr hrest

/-- The allocation of a trial. -/
theorem guarantees_ask {a : ℕ} (hinv : Consistent cfg w) (hpermitted : Permitted cfg t w .ask)
    (hexec : execReplenish cfg t w .ask = some (w', a)) :
    (replenishContract T cfg).Guarantees t j w w' := by
  obtain ⟨hlock, hroom, hslot⟩ := hpermitted
  obtain ⟨rfl, -⟩ := Prod.mk.inj (Option.some.inj hexec)
  refine ⟨⟨fun maxTrials hmax => hroom maxTrials hmax, ?_, hinv.disciplined, hinv.keysKnown,
    fun number hnumber => ?_⟩, fun _ _ h => h, fun t' hne => ⟨Store.Frame.refl t' _,
      fun _ _ h => h, fun hlock' => ?_⟩⟩
  · change inFlight (ReplenishWorld.states cfg { w with
      records := ⟨w.records.table, w.records.outside.update cfg.studyId w.allocated .running⟩
      allocated := w.allocated + 1 }) ≤ _
    rw [states_ask]
    simp only [inFlight, List.countP_append, List.countP_cons, List.countP_nil,
      TrialState.isFinished] at hslot ⊢
    simp only [Bool.not_false, if_true]
    omega
  · -- what the process had asked for before is lost
    have hkept : ∀ t₀, w.asked t₀ = some number → Accounted cfg
        { w with
            records := ⟨w.records.table, w.records.outside.update cfg.studyId w.allocated .running⟩
            allocated := w.allocated + 1
            asked := Function.update w.asked t (some w.allocated)
            lost := w.lost ++ (w.asked t).toList } number := by
      intro t₀ hasked
      by_cases ht : t₀ = t
      · subst ht
        exact Or.inr (Or.inr (Or.inr (List.mem_append_right _ (by simp [hasked]))))
      · exact Or.inr (Or.inr (Or.inl ⟨t₀, by simpa [ht] using hasked⟩))
    rcases Nat.lt_succ_iff_lt_or_eq.mp hnumber with hold | rfl
    · rcases hinv.accounted number hold with hrow | hqueue | ⟨t₀, hasked⟩ | hlost
      · exact Or.inl hrow
      · exact Or.inr (Or.inl hqueue)
      · exact hkept t₀ hasked
      · exact Or.inr (Or.inr (Or.inr (List.mem_append_left _ hlost)))
    · exact Or.inr (Or.inr (Or.inl ⟨t, by simp⟩))
  · rw [hlock] at hlock'
    exact absurd (Option.some.inj hlock').symm hne

omit [DecidableEq T] in
theorem Accounted.of_same (h : Accounted cfg w number)
    (hrecords : w'.records = w.records) (hqueue : number ∈ w.queue → number ∈ w'.queue)
    (hasked : ∀ t, w.asked t = some number → Accounted cfg w' number)
    (hlost : number ∈ w.lost → number ∈ w'.lost) : Accounted cfg w' number := by
  rcases h with hrow | hmem | ⟨t, ht⟩ | hmem
  · exact Or.inl (by rwa [hrecords])
  · exact Or.inr (Or.inl (hqueue hmem))
  · exact hasked t ht
  · exact Or.inr (Or.inr (Or.inr (hlost hmem)))

theorem lock_unlock (hne : t' ≠ t) (h : w.lock = some t') : (w.unlock t).lock = some t' := by
  unfold ReplenishWorld.unlock
  split
  · rename_i hmine
    exact absurd (Option.some.inj (h.symm.trans hmine)) hne
  · exact h

@[simp] theorem records_unlock : (w.unlock t).records = w.records := by
  unfold ReplenishWorld.unlock
  split <;> rfl

@[simp] theorem allocated_unlock : (w.unlock t).allocated = w.allocated := by
  unfold ReplenishWorld.unlock
  split <;> rfl

@[simp] theorem queue_unlock : (w.unlock t).queue = w.queue := by
  unfold ReplenishWorld.unlock
  split <;> rfl

@[simp] theorem asked_unlock : (w.unlock t).asked = w.asked := by
  unfold ReplenishWorld.unlock
  split <;> rfl

@[simp] theorem lost_unlock : (w.unlock t).lost = w.lost := by
  unfold ReplenishWorld.unlock
  split <;> rfl

theorem guarantees_unlock (hinv : Consistent cfg w) :
    (replenishContract T cfg).Guarantees t j w (w.unlock t) := by
  refine guarantees_of_same hinv records_unlock allocated_unlock (fun t' => lock_unlock)
    fun number hnumber => ?_
  refine (hinv.accounted number hnumber).of_same records_unlock ?_ (fun t₀ hasked => ?_) ?_
  · rw [queue_unlock]
    exact id
  · exact Or.inr (Or.inr (Or.inl ⟨t₀, by rwa [asked_unlock]⟩))
  · rw [lost_unlock]
    exact id

/-- A permitted operation keeps the contract. -/
theorem guarantees_exec {o : ReplenishOp} {a : o.Res} (hinv : Consistent cfg w)
    (hpermitted : Permitted cfg t w o) (hexec : execReplenish cfg t w o = some (w', a)) :
    (replenishContract T cfg).Guarantees t j w w' := by
  have hsame : (replenishContract T cfg).Guarantees t j w w :=
    guarantees_of_same hinv rfl rfl (fun _ _ h => h) hinv.accounted
  cases o with
  | trial o =>
    obtain ⟨⟨records, a'⟩, htrial, heq⟩ := Option.map_eq_some_iff.mp hexec
    obtain ⟨rfl, rfl⟩ := Prod.mk.inj heq
    exact guarantees_trial hinv hpermitted htrial
  | ask => exact guarantees_ask hinv hpermitted hexec
  | getStatus =>
    obtain ⟨rfl, -⟩ := Prod.mk.inj (Option.some.inj hexec)
    exact hsame
  | trialRows =>
    obtain ⟨rfl, -⟩ := Prod.mk.inj (Option.some.inj hexec)
    exact hsame
  | optunaStates =>
    obtain ⟨rfl, -⟩ := Prod.mk.inj (Option.some.inj hexec)
    exact hsame
  | endStudy target =>
    simp only [execReplenish] at hexec
    split at hexec
    · obtain ⟨rfl, -⟩ := Prod.mk.inj (Option.some.inj hexec)
      exact guarantees_of_same hinv rfl rfl (fun _ _ h => h) hinv.accounted
    · obtain ⟨rfl, -⟩ := Prod.mk.inj (Option.some.inj hexec)
      exact hsame
  | tryLock =>
    simp only [execReplenish] at hexec
    split at hexec
    · rename_i hfree
      obtain ⟨rfl, -⟩ := Prod.mk.inj (Option.some.inj hexec)
      exact guarantees_of_same hinv rfl rfl (fun _ _ h => by rw [hfree] at h; cases h) hinv.accounted
    · obtain ⟨rfl, -⟩ := Prod.mk.inj (Option.some.inj hexec)
      exact hsame
  | commit =>
    obtain ⟨rfl, -⟩ := Prod.mk.inj (Option.some.inj hexec)
    exact guarantees_unlock hinv
  | rollback =>
    obtain ⟨rfl, -⟩ := Prod.mk.inj (Option.some.inj hexec)
    exact guarantees_unlock hinv
  | enqueueJob number =>
    obtain ⟨rfl, -⟩ := Prod.mk.inj (Option.some.inj hexec)
    refine guarantees_of_same hinv rfl rfl (fun _ _ h => h) fun n hn => ?_
    refine (hinv.accounted n hn).of_same rfl (List.mem_append_left _) (fun t₀ hasked => ?_) id
    -- what was asked for is kept, or it has just been enqueued
    by_cases hdone : w.asked t = some number ∧ t₀ = t
    · obtain ⟨hnumber, rfl⟩ := hdone
      obtain rfl := Option.some.inj (hasked.symm.trans hnumber)
      exact Or.inr (Or.inl (List.mem_append_right _ (List.mem_singleton_self _)))
    · refine Or.inr (Or.inr (Or.inl ⟨t₀, ?_⟩))
      dsimp only
      split
      · rename_i hmine
        have hne : t₀ ≠ t := fun h => hdone ⟨hmine, h⟩
        rwa [Function.update_of_ne hne]
      · exact hasked
  | finish number raised =>
    obtain ⟨rfl, -⟩ := Prod.mk.inj (Option.some.inj hexec)
    refine guarantees_of_same hinv rfl rfl (fun _ _ h => h) fun n hn => ?_
    have hlater : n ∈ w.lost → n ∈ (if raised then w.lost ++ [number] else w.lost) := by
      intro h
      split
      · exact List.mem_append_left _ h
      · exact h
    by_cases hsame : n = number
    · subst hsame
      cases raised with
      | false => exact Or.inl hpermitted
      | true =>
        exact Or.inr (Or.inr (Or.inr (List.mem_append_right _ (List.mem_singleton_self _))))
    · refine (hinv.accounted n hn).of_same rfl (fun h => ?_)
        (fun t₀ hasked => Or.inr (Or.inr (Or.inl ⟨t₀, hasked⟩))) hlater
      exact List.mem_filter.mpr ⟨h, by simpa using hsame⟩

theorem guarantees_trans {w₁ w₂ : ReplenishWorld T}
    (h : (replenishContract T cfg).Guarantees t j w w₁)
    (h' : (replenishContract T cfg).Guarantees t j w₁ w₂) :
    (replenishContract T cfg).Guarantees t j w w₂ where
  inv := h'.inv
  change key row hrow := h'.change key row (h.change key row hrow)
  rely t' hne := (replenishContract T cfg).rely_trans t' w w₁ w₂ (h.rely t' hne) (h'.rely t' hne)

/-- The end of a process: its transaction is undone, and what it was about to enqueue is
lost. -/
theorem guarantees_reset (hinv : Consistent cfg w) :
    (replenishContract T cfg).Guarantees t j w (resetReplenish t w) := by
  have hrolled : (replenishContract T cfg).Guarantees t j w
      { w with records := ⟨w.records.table.rollback t, w.records.outside⟩ } :=
    guarantees_trial (o := .row .rollback) (a := ()) hinv trivial rfl
  have hunlocked := guarantees_trans hrolled (guarantees_unlock (t := t) hrolled.inv)
  refine guarantees_trans hunlocked (guarantees_of_same hunlocked.inv ?_ ?_ ?_ ?_)
  · simp [resetReplenish]
  · simp [resetReplenish]
  · intro t' hne hlock
    have hold : w.lock = some t' := by
      simp only [ReplenishWorld.unlock] at hlock
      split at hlock
      · cases hlock
      · exact hlock
    exact lock_unlock hne hold
  · intro number hnumber
    refine (hunlocked.inv.accounted number hnumber).of_same ?_ ?_ (fun t₀ hasked => ?_) ?_
    · simp [resetReplenish]
    · simp [resetReplenish]
    · rw [asked_unlock] at hasked
      have hmine : w.asked t₀ = some number := hasked
      by_cases ht : t₀ = t
      · subst ht
        exact Or.inr (Or.inr (Or.inr (List.mem_append_right _ (by simp [hmine]))))
      · refine Or.inr (Or.inr (Or.inl ⟨t₀, ?_⟩))
        rwa [show (resetReplenish t w).asked = Function.update w.asked t none from rfl,
          Function.update_of_ne ht]
    · rw [lost_unlock]
      exact List.mem_append_left _

end RelyLoop.Trials.Replenish
