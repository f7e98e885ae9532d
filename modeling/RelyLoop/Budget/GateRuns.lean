import RelyLoop.Budget.Gate
import RelyLoop.Concurrency.RelyGuarantee
import Mathlib.Algebra.Order.Floor.Semiring
import Mathlib.Data.Rat.Floor

/-!
# Runs of callers under one budget

What the day's total can reach is what the last reading with room allows, beside the calls that
were admitted by older readings.
-/

namespace RelyLoop.Budget

open Concurrency Metering

variable {T : Type} [DecidableEq T] [Fintype T] {settings : BudgetSettings} {estMax bound : ℚ}
  {cond : T → GateWorld T → GateOp → Prop}

/-- A reading that leaves room leaves it beside the calls that are admitted already. -/
def ReadsWithin (settings : BudgetSettings) (estMax bound : ℚ)
    (cond : T → GateWorld T → GateOp → Prop) : Prop :=
  ∀ t w, cond t w .get → 0 ≤ w.meter.total → w.meter.total + estMax ≤ settings.budgetUsd →
    w.meter.total + (w.meter.others t + 1) • estMax ≤ bound

/-- The contract of the callers. -/
def gateContract (estMax bound : ℚ) (cond : T → GateWorld T → GateOp → Prop) :
    Contract T GateJob (GateWorld T) GateOp where
  inv w := 0 ≤ w.meter.total ∧ w.meter.Within bound estMax
  change _ _ _ := True
  rely t w w' := w'.admitted t = w.admitted t
  cond := cond
  rely_refl _ _ := rfl
  rely_trans _ _ _ _ h h' := h'.trans h

section

variable {t : T} {j : GateJob} {w w' : GateWorld T}

omit [DecidableEq T] in
/-- The guarantee of a step that changes what belongs to `t` only. -/
theorem guarantees_of_own (hinv : (gateContract estMax bound cond).inv w')
    (hown : ∀ t', t' ≠ t → w'.admitted t' = w.admitted t') :
    (gateContract estMax bound cond).Guarantees t j w w' :=
  ⟨hinv, trivial, hown⟩

theorem leavesRoom_eq (hest : estimatedMaxCallCost settings.model = .ok estMax)
    (raw : Option ℚ) :
    leavesRoom settings raw = decide (peekDailyTotal raw + estMax ≤ settings.budgetUsd) := by
  simp [leavesRoom, hest]

/-- A check that returns has read a total with room. -/
theorem safe_checkBudget (hbudget : 0 < settings.budgetUsd)
    (hest : estimatedMaxCallCost settings.model = .ok estMax)
    (hreads : ReadsWithin settings estMax bound cond) (peekRaises : Option String) :
    Safe (callers settings T) (gateContract estMax bound cond) t j
      (fun _ w => w.admitted t = true) (fun _ _ => True) (checkBudget settings peekRaises) w := by
  have hpos := estimatedMaxCallCost_pos hest
  unfold checkBudget
  rw [if_pos hbudget]
  cases peekRaises with
  | some type => trivial
  | none =>
    intro w₁ _ hinv hcond w₂ raw hexec
    obtain ⟨rfl, rfl⟩ := Prod.mk.inj (Option.some.inj hexec)
    have hmeter : GateWorld.meter { w₁ with
        admitted := Function.update w₁.admitted t (leavesRoom settings w₁.dailyKey) } =
        w₁.meter.read settings.budgetUsd estMax t := by
      rw [leavesRoom_eq hest]
      rfl
    constructor
    · refine guarantees_of_own ?_ fun t' hne => Function.update_of_ne hne _ _
      constructor
      · exact hinv.1
      · rw [hmeter]
        exact hinv.2.read hpos.le fun hroom => hreads t w₁ hcond hinv.1 hroom
    · rw [hest]
      dsimp only
      rw [Program.done_bind]
      split
      · trivial
      · rename_i hroom
        simp [leavesRoom_eq hest, not_lt.mp hroom]

/-- Recording the cost of an admitted call. -/
theorem safe_safeRecordCost {costUsd : ℚ} (hadmitted : w.admitted t = true)
    (hcost : 0 ≤ costUsd) (hle : costUsd ≤ estMax) (recordRaises : Bool) :
    Safe (callers settings T) (gateContract estMax bound cond) t j (fun _ _ => True)
      (fun _ _ => True) (safeRecordCost costUsd recordRaises) w := by
  rw [safeRecordCost]
  split
  · trivial
  · intro w₁ hrely hinv _ w₂ total hexec
    obtain ⟨rfl, rfl⟩ := Prod.mk.inj (Option.some.inj hexec)
    refine ⟨guarantees_of_own ?_ fun t' hne => Function.update_of_ne hne _ _, trivial⟩
    constructor
    · exact add_nonneg hinv.1 hcost
    · exact hinv.2.add (hrely.trans hadmitted) hle

/-- The turn of a judgment list. -/
theorem safe_processJudgmentQuery (hbudget : 0 < settings.budgetUsd)
    (hest : estimatedMaxCallCost settings.model = .ok estMax)
    (hreads : ReadsWithin settings estMax bound cond) {turn : BudgetTurn}
    (hturn : turn.affordable settings = true) :
    Safe (callers settings T) (gateContract estMax bound cond) t j (fun _ _ => True)
      (fun _ _ => True) (processJudgmentQuery settings turn) w := by
  rw [processJudgmentQuery]
  split
  · trivial
  · refine Safe.seq (safe_checkBudget hbudget hest hreads turn.peekRaises) fun _ w' hadmitted => ?_
    split
    · trivial
    · trivial
    · split
      · trivial
      · trivial
      · rename_i inputTokens outputTokens complete hrate
        split
        · trivial
        · rename_i costUsd hcost
          have hle : costUsd ≤ estMax := by
            simpa [BudgetTurn.affordable, hrate, hcost, hest] using hturn
          have hrecord : Safe (callers settings T) (gateContract estMax bound cond) t j
              (fun _ _ => True) (fun _ _ => True) (safeRecordCost costUsd turn.recordRaises) w' :=
            safe_safeRecordCost hadmitted (computeCallCost_nonneg hcost) hle turn.recordRaises
          split
          · split
            · trivial
            · exact Safe.seq hrecord fun _ _ _ => trivial
          · exact Safe.seq hrecord fun _ _ _ => trivial

/-- The turn of a hybrid tail. -/
theorem safe_hybridTurn (hbudget : 0 < settings.budgetUsd)
    (hest : estimatedMaxCallCost settings.model = .ok estMax)
    (hreads : ReadsWithin settings estMax bound cond) {turn : BudgetTurn}
    (hturn : turn.affordable settings = true) :
    Safe (callers settings T) (gateContract estMax bound cond) t j (fun _ _ => True)
      (fun _ _ => True) (hybridTurn settings turn) w := by
  rw [hybridTurn]
  refine Safe.seq (safe_checkBudget hbudget hest hreads turn.peekRaises) fun _ w' hadmitted => ?_
  split
  · trivial
  · split
    · trivial
    · trivial
    · rename_i inputTokens outputTokens complete hrate
      split
      · trivial
      · rename_i costUsd hcost
        have hle : costUsd ≤ estMax := by
          simpa [BudgetTurn.affordable, hrate, hcost, hest] using hturn
        exact safe_safeRecordCost hadmitted (computeCallCost_nonneg hcost) hle turn.recordRaises

theorem gateContract_met (hbudget : 0 < settings.budgetUsd)
    (hest : estimatedMaxCallCost settings.model = .ok estMax)
    (hreads : ReadsWithin settings estMax bound cond) :
    (gateContract estMax bound cond).Met (callers settings T) where
  code t j w _ hadmits := by
    have hturns : ∀ turn ∈ j.turns, turn.affordable settings = true := by
      simpa [callers] using hadmits
    cases j with
    | judgmentList turns =>
      refine Safe.each (I := fun _ => True) (fun turn hturn w' _ => ?_) trivial
      have hsafe := safe_processJudgmentQuery (w := w') (t := t)
        (j := .judgmentList turns) hbudget hest hreads (hturns turn hturn)
      exact Safe.seq hsafe fun _ _ _ => trivial
    | hybridTail turns =>
      exact Safe.each (I := fun _ => True) (fun turn hturn w' _ =>
        safe_hybridTurn hbudget hest hreads (hturns turn hturn)) trivial
  reset t j w hinv :=
    guarantees_of_own ⟨hinv.1, hinv.2.leave (estimatedMaxCallCost_pos hest).le t⟩
      fun t' hne => Function.update_of_ne hne _ _

end

/-- Runs whose readings leave room within a bound keep the total within it. -/
theorem total_le_of_run (hbudget : 0 < settings.budgetUsd)
    (hest : estimatedMaxCallCost settings.model = .ok estMax)
    (hreads : ReadsWithin settings estMax bound cond) (hbound : 0 ≤ bound)
    {c : Config T GateJob (GateWorld T) GateOp GateOp.Res GateError}
    (hrun : (callers settings T).Run cond (System.idle (newDay T)) c) :
    peekDailyTotal c.world.dailyKey ≤ bound := by
  have hstart : (gateContract estMax bound cond).inv (newDay T) :=
    ⟨le_rfl, Meter.within_of_idle (fun _ => rfl) hbound⟩
  have hsound := (gateContract_met hbudget hest hreads).run (Contract.sound_idle hstart) hrun
  exact hsound.1.2.total_le (estimatedMaxCallCost_pos hest).le

/-! ## Calls that cost what was estimated -/

/-- A turn whose call uses all the tokens of the estimate. -/
def fullTurn : BudgetTurn := { rate := .answers inputTokenCeiling outputTokenCeiling true }

/-- A list with one such query. -/
def fullJob : GateJob := .judgmentList [fullTurn]

/-- What is left of the job once the call is admitted. -/
def recordsCost (costUsd : ℚ) : Gate Unit := .call (.incrByFloat costUsd) fun _ => .done ()

/-- The job reads the total and, if there is room, records the estimate. -/
theorem code_fullJob (hbudget : 0 < settings.budgetUsd)
    (hest : estimatedMaxCallCost settings.model = .ok estMax) :
    fullJob.code settings = .call .get fun raw =>
      if settings.budgetUsd < peekDailyTotal raw + estMax then .raise .budgetExceeded
      else recordsCost estMax := by
  have hcost : computeCallCost settings.model inputTokenCeiling outputTokenCeiling = .ok estMax :=
    hest
  rw [fullJob]
  simp only [GateJob.code, Program.each, processJudgmentQuery, fullTurn, checkBudget, if_pos hbudget, hest,
    hcost, safeRecordCost, recordsCost]
  simp only [Bool.false_eq_true, if_false, if_true, Program.bind_eq, Program.perform,
    Program.call_bind, Program.done_bind, Program.pure_eq, Program.throw_eq]
  congr 1
  funext raw
  split <;> rfl

section

variable {c c' : Config T GateJob (GateWorld T) GateOp GateOp.Res GateError} {t : T}
  {raw : Option ℚ} {task : Option (GateJob × Gate Unit)}

/-- A run in which only `t` acts, with the value of the key and the rest of the task at its
end. -/
structure Acts (settings : BudgetSettings) (t : T)
    (c c' : Config T GateJob (GateWorld T) GateOp GateOp.Res GateError) (raw : Option ℚ)
    (task : Option (GateJob × Gate Unit)) : Prop where
  run : (callers settings T).Run (fun _ _ _ => True) c c'
  dailyKey : c'.world.dailyKey = raw
  own : c'.task t = task
  others : ∀ t', t' ≠ t → c'.task t' = c.task t'

omit [Fintype T] in
theorem acts_of_step {a : Action T GateJob} {w : GateWorld T} (hraw : w.dailyKey = raw)
    (h : (callers settings T).step c a = some ⟨w, Function.update c.task t task⟩) :
    Acts settings t c ⟨w, Function.update c.task t task⟩ raw task where
  run := Relation.ReflTransGen.single ⟨a, h, fun _ _ _ _ _ _ => trivial⟩
  dailyKey := hraw
  own := Function.update_self t task c.task
  others _ hne := Function.update_of_ne hne task c.task

omit [Fintype T] in
variable (settings) in
theorem acts_start (h : c.task t = none) :
    ∃ c', Acts settings t c c' c.world.dailyKey (some (fullJob, fullJob.code settings)) := by
  have hadmits : (callers settings T).admits c.world fullJob = true := by
    cases hest : estimatedMaxCallCost settings.model with
    | error e => simp [callers, fullJob, GateJob.turns, BudgetTurn.affordable, fullTurn, hest]
    | ok estMax =>
      have hcost : computeCallCost settings.model inputTokenCeiling outputTokenCeiling =
          .ok estMax := hest
      simp [callers, fullJob, GateJob.turns, BudgetTurn.affordable, fullTurn, hest, hcost]
  refine ⟨_, acts_of_step (a := .start t fullJob) (w := (callers settings T).reset t c.world) rfl ?_⟩
  rw [System.step, h]
  dsimp only
  rw [if_pos hadmits]
  rfl

omit [Fintype T] in
theorem acts_read (hbudget : 0 < settings.budgetUsd)
    (hest : estimatedMaxCallCost settings.model = .ok estMax)
    (h : c.task t = some (fullJob, fullJob.code settings))
    (hroom : peekDailyTotal c.world.dailyKey + estMax ≤ settings.budgetUsd) :
    ∃ c', Acts settings t c c' c.world.dailyKey (some (fullJob, recordsCost estMax)) := by
  rw [code_fullJob hbudget hest] at h
  refine ⟨_, acts_of_step (a := .call t)
    (w := { c.world with
      admitted := Function.update c.world.admitted t (leavesRoom settings c.world.dailyKey) })
    rfl ?_⟩
  rw [System.step, h]
  simp [callers, execGate, not_lt.mpr hroom]

omit [Fintype T] in
variable (settings) in
theorem acts_record (h : c.task t = some (fullJob, recordsCost estMax)) :
    ∃ c', Acts settings t c c' (recordCost c.world.dailyKey estMax)
      (some (fullJob, .done ())) := by
  refine ⟨_, acts_of_step (a := .call t) (w := ⟨recordCost c.world.dailyKey estMax,
    Function.update c.world.admitted t false⟩) rfl ?_⟩
  rw [System.step, h]
  rfl

omit [Fintype T] in
variable (settings) in
theorem acts_stop (h : c.task t = some (fullJob, .done ())) :
    ∃ c', Acts settings t c c' c.world.dailyKey none := by
  refine ⟨_, acts_of_step (a := .stop t) (w := (callers settings T).reset t c.world) rfl ?_⟩
  rw [System.step, h]

omit [Fintype T] in
theorem Acts.trans {c'' : Config T GateJob (GateWorld T) GateOp GateOp.Res GateError}
    {raw' : Option ℚ} {task' : Option (GateJob × Gate Unit)} (h : Acts settings t c c' raw task)
    (h' : Acts settings t c' c'' raw' task') : Acts settings t c c'' raw' task' where
  run := h.run.trans h'.run
  dailyKey := h'.dailyKey
  own := h'.own
  others t' hne := (h'.others t' hne).trans (h.others t' hne)

omit [Fintype T] in
/-- An idle task starts and is admitted. -/
theorem acts_admitted (hbudget : 0 < settings.budgetUsd)
    (hest : estimatedMaxCallCost settings.model = .ok estMax) (h : c.task t = none)
    (hroom : peekDailyTotal c.world.dailyKey + estMax ≤ settings.budgetUsd) :
    ∃ c', Acts settings t c c' c.world.dailyKey (some (fullJob, recordsCost estMax)) := by
  obtain ⟨c₁, h₁⟩ := acts_start settings h
  rw [← h₁.dailyKey] at hroom
  obtain ⟨c₂, h₂⟩ := acts_read hbudget hest h₁.own hroom
  rw [h₁.dailyKey] at h₂
  exact ⟨c₂, h₁.trans h₂⟩

omit [Fintype T] in
/-- An idle task makes its call. -/
theorem acts_call (hbudget : 0 < settings.budgetUsd)
    (hest : estimatedMaxCallCost settings.model = .ok estMax) (h : c.task t = none)
    (hroom : peekDailyTotal c.world.dailyKey + estMax ≤ settings.budgetUsd) :
    ∃ c', Acts settings t c c' (recordCost c.world.dailyKey estMax) none := by
  obtain ⟨c₁, h₁⟩ := acts_admitted hbudget hest h hroom
  obtain ⟨c₂, h₂⟩ := acts_record settings h₁.own
  obtain ⟨c₃, h₃⟩ := acts_stop settings h₂.own
  rw [h₁.dailyKey] at h₂
  rw [h₂.dailyKey] at h₃
  exact ⟨c₃, (h₁.trans h₂).trans h₃⟩

omit [Fintype T] in
/-- Calls one after the other, as many as fit. -/
theorem exists_calls (hbudget : 0 < settings.budgetUsd)
    (hest : estimatedMaxCallCost settings.model = .ok estMax) (t : T) {n : ℕ}
    (hroom : n * estMax ≤ settings.budgetUsd) :
    ∃ c', (callers settings T).Run (fun _ _ _ => True) (System.idle (newDay T)) c' ∧
      peekDailyTotal c'.world.dailyKey = n * estMax ∧ ∀ t', c'.task t' = none := by
  have hpos := estimatedMaxCallCost_pos hest
  induction n with
  | zero =>
    refine ⟨_, Relation.ReflTransGen.refl, ?_, fun _ => rfl⟩
    simp [System.idle, newDay, peekDailyTotal]
  | succ n ih =>
    have hsucc : ((n + 1 : ℕ) : ℚ) * estMax = n * estMax + estMax := by push_cast; ring
    rw [hsucc] at hroom ⊢
    obtain ⟨c, hrun, htotal, hidle⟩ := ih (by linarith)
    obtain ⟨c', hacts⟩ := acts_call hbudget hest (hidle t) (by rwa [htotal])
    refine ⟨c', hrun.trans hacts.run, ?_, fun t' => ?_⟩
    · rw [hacts.dailyKey, recordCost, peekDailyTotal, Option.getD_some, htotal]
    · by_cases hne : t' = t
      · rw [hne, hacts.own]
      · rw [hacts.others t' hne, hidle t']

omit [Fintype T] in
/-- Three calls that are admitted by one reading. -/
theorem exists_overlapping_calls (hbudget : 0 < settings.budgetUsd)
    (hest : estimatedMaxCallCost settings.model = .ok estMax) {t₁ t₂ t₃ : T} (h₁₂ : t₁ ≠ t₂)
    (h₁₃ : t₁ ≠ t₃) (h₂₃ : t₂ ≠ t₃) (hidle : ∀ t, c.task t = none)
    (hroom : peekDailyTotal c.world.dailyKey + estMax ≤ settings.budgetUsd) :
    ∃ c', (callers settings T).Run (fun _ _ _ => True) c c' ∧
      peekDailyTotal c'.world.dailyKey = peekDailyTotal c.world.dailyKey + 3 * estMax := by
  obtain ⟨c₁, ha⟩ := acts_admitted hbudget hest (hidle t₁) hroom
  have hidle₂ : c₁.task t₂ = none := by rw [ha.others t₂ h₁₂.symm, hidle]
  obtain ⟨c₂, hb⟩ := acts_admitted hbudget hest hidle₂ (by rwa [ha.dailyKey])
  have hidle₃ : c₂.task t₃ = none := by rw [hb.others t₃ h₂₃.symm, ha.others t₃ h₁₃.symm, hidle]
  obtain ⟨c₃, hc⟩ := acts_admitted hbudget hest hidle₃ (by rwa [hb.dailyKey, ha.dailyKey])
  have hcalls₁ : c₃.task t₁ = some (fullJob, recordsCost estMax) := by
    rw [hc.others t₁ h₁₃, hb.others t₁ h₁₂, ha.own]
  obtain ⟨c₄, hd⟩ := acts_record settings hcalls₁
  have hcalls₂ : c₄.task t₂ = some (fullJob, recordsCost estMax) := by
    rw [hd.others t₂ h₁₂.symm, hc.others t₂ h₂₃, hb.own]
  obtain ⟨c₅, he⟩ := acts_record settings hcalls₂
  have hcalls₃ : c₅.task t₃ = some (fullJob, recordsCost estMax) := by
    rw [he.others t₃ h₂₃.symm, hd.others t₃ h₁₃.symm, hc.own]
  obtain ⟨c₆, hf⟩ := acts_record settings hcalls₃
  refine ⟨c₆, ?_, ?_⟩
  · exact ha.run.trans <| hb.run.trans <| hc.run.trans <| hd.run.trans <| he.run.trans hf.run
  · rw [hf.dailyKey, he.dailyKey, hd.dailyKey, hc.dailyKey, hb.dailyKey, ha.dailyKey]
    simp only [recordCost, peekDailyTotal, Option.getD_some]
    ring

end

/-! ## The bound -/

theorem others_le_one (hcard : Fintype.card T ≤ 2) (w : GateWorld T) (t : T) :
    w.meter.others t ≤ 1 := by
  have hlt := w.meter.others_lt_card t
  omega

/-- A reading beside at most one other call leaves room for the cost of one call. -/
theorem readsWithin_of_others (hpos : 0 < estMax)
    (hcond : ∀ t w, cond t w .get → w.meter.others t ≤ 1) :
    ReadsWithin settings estMax (settings.budgetUsd + estMax) cond := by
  intro t w hread _ hroom
  have hle : (w.meter.others t + 1) • estMax ≤ 2 • estMax :=
    nsmul_le_nsmul_left hpos.le (by have := hcond t w hread; omega)
  rw [two_nsmul] at hle
  linarith

/-- Some run of three callers or more exceeds the budget by more than the cost of one call. -/
theorem exists_run_over (hbudget : 0 < settings.budgetUsd)
    (hest : estimatedMaxCallCost settings.model = .ok estMax) (hcard : 2 < Fintype.card T)
    (hfits : estMax ≤ settings.budgetUsd) :
    ∃ c, (callers settings T).Run (fun _ _ _ => True) (System.idle (newDay T)) c ∧
      settings.budgetUsd + estMax < peekDailyTotal c.world.dailyKey := by
  have hpos := estimatedMaxCallCost_pos hest
  obtain ⟨t₁, t₂, t₃, h₁₂, h₁₃, h₂₃⟩ := Fintype.two_lt_card_iff.mp hcard
  -- the number of calls that fit into the budget, less one
  obtain ⟨n, hn⟩ : ∃ n, ⌊settings.budgetUsd / estMax⌋₊ = n + 1 := by
    refine Nat.exists_eq_succ_of_ne_zero (Nat.floor_pos.mpr ?_).ne'
    rwa [one_le_div hpos]
  have hlow : ((n : ℚ) + 1) * estMax ≤ settings.budgetUsd := by
    have hle := Nat.floor_le (div_nonneg hbudget.le hpos.le)
    rw [hn, le_div_iff₀ hpos] at hle
    exact_mod_cast hle
  have hhigh : settings.budgetUsd < ((n : ℚ) + 2) * estMax := by
    have hlt := Nat.lt_floor_add_one (settings.budgetUsd / estMax)
    rw [hn, div_lt_iff₀ hpos] at hlt
    push_cast at hlt
    linarith
  obtain ⟨c, hrun, htotal, hidle⟩ := exists_calls hbudget hest t₁ (n := n) (by linarith)
  obtain ⟨c', hrun', htotal'⟩ := exists_overlapping_calls hbudget hest h₁₂ h₁₃ h₂₃ hidle
    (by rw [htotal]; linarith)
  refine ⟨c', hrun.trans hrun', ?_⟩
  rw [htotal', htotal]
  linarith

/-- The day's total exceeds the budget by the cost of one call at most when every caller reads it
while at most one other call is admitted and not yet recorded. Without that condition it does so
for at most two callers, or when not even one call fits, and for no other callers. -/
theorem daily_total_bounded (hbudget : 0 < settings.budgetUsd)
    (hest : estimatedMaxCallCost settings.model = .ok estMax) :
    (∀ c, (callers settings T).Run (fun t w o => o = .get → w.meter.others t ≤ 1)
        (System.idle (newDay T)) c →
      peekDailyTotal c.world.dailyKey ≤ settings.budgetUsd + estMax) ∧
    ((∀ c, (callers settings T).Run (fun _ _ _ => True) (System.idle (newDay T)) c →
        peekDailyTotal c.world.dailyKey ≤ settings.budgetUsd + estMax) ↔
      Fintype.card T ≤ 2 ∨ settings.budgetUsd < estMax) := by
  have hpos := estimatedMaxCallCost_pos hest
  have hbound : 0 ≤ settings.budgetUsd + estMax := by linarith
  constructor
  · intro c hrun
    exact total_le_of_run hbudget hest (readsWithin_of_others hpos fun t w h => h rfl) hbound hrun
  constructor
  · intro hall
    by_contra hnot
    push Not at hnot
    obtain ⟨c, hrun, hover⟩ := exists_run_over hbudget hest hnot.1 hnot.2
    exact absurd (hall c hrun) (not_le.mpr hover)
  · rintro (hcard | hnone) c hrun
    · exact total_le_of_run hbudget hest
        (readsWithin_of_others hpos fun t w _ => others_le_one hcard w t) hbound hrun
    · refine total_le_of_run hbudget hest (fun t w _ hnonneg hroom => ?_) hbound hrun
      exact absurd hroom (by linarith)

/-- A budget of five cents, into which one call fits. -/
def fiveCents : BudgetSettings := ⟨"gpt-4o-2024-08-06", 1 / 20⟩

theorem fiveCents_estMax : estimatedMaxCallCost fiveCents.model = .ok (9 / 200) := by
  decide +kernel

theorem daily_total_bounded_fiveCents :
    (∀ c, (callers fiveCents (Fin 3)).Run (fun t w o => o = .get → w.meter.others t ≤ 1)
        (System.idle (newDay (Fin 3))) c →
      peekDailyTotal c.world.dailyKey ≤ fiveCents.budgetUsd + 9 / 200) ∧
    ((∀ c, (callers fiveCents (Fin 3)).Run (fun _ _ _ => True)
        (System.idle (newDay (Fin 3))) c →
        peekDailyTotal c.world.dailyKey ≤ fiveCents.budgetUsd + 9 / 200) ↔
      Fintype.card (Fin 3) ≤ 2 ∨ fiveCents.budgetUsd < 9 / 200) :=
  daily_total_bounded (by norm_num [fiveCents]) fiveCents_estMax

/-- Three callers read an unset key, and each of them spends four and a half cents. -/
theorem three_callers_overspend :
    ∃ c, (callers fiveCents (Fin 3)).Run (fun _ _ _ => True) (System.idle (newDay (Fin 3))) c ∧
      ¬ peekDailyTotal c.world.dailyKey ≤ fiveCents.budgetUsd + 9 / 200 := by
  have hbudget : 0 < fiveCents.budgetUsd := by norm_num [fiveCents]
  have hidle : ∀ t, (System.idle (newDay (Fin 3)) :
      Config (Fin 3) GateJob (GateWorld (Fin 3)) GateOp GateOp.Res GateError).task t = none :=
    fun _ => rfl
  have h₀₁ : (0 : Fin 3) ≠ 1 := by decide
  have h₀₂ : (0 : Fin 3) ≠ 2 := by decide
  have h₁₂ : (1 : Fin 3) ≠ 2 := by decide
  obtain ⟨c, hrun, htotal⟩ := exists_overlapping_calls hbudget fiveCents_estMax h₀₁ h₀₂ h₁₂ hidle
    (by norm_num [fiveCents, System.idle, newDay, peekDailyTotal])
  refine ⟨c, hrun, ?_⟩
  rw [htotal]
  norm_num [fiveCents, System.idle, newDay, peekDailyTotal]

end RelyLoop.Budget
