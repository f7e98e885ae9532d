import RelyLoop.Judgments.WorkerSafety

/-!
# The callers of the judgment workers are safe

The API, the sweep at worker boot and the resume tick enqueue workers for lists
whose committed rows they know. What they know is `Persistent`: it stays true
while the rows evolve.
-/

namespace RelyLoop.Judgments

open Concurrency Store

variable {T : Type} [DecidableEq T]
variable {D : JudgmentDiscipline T} {t : T} {k : ℕ} {w w' : Beside T ℕ JudgmentList Queue}
variable {code : Job → Db Unit} {j : Job} {worker : Worker} {caller : Caller}
variable {E : JudgmentError → Beside T ℕ JudgmentList Queue → Prop}

/-- Knowledge about the committed rows that does not become wrong. -/
def Persistent (D : JudgmentDiscipline T) (S : Store T ℕ JudgmentList → Prop) : Prop :=
  ∀ s s', D.Evolves s s' → S s → S s'

/-- The caller's choice of a worker, for every list that it has found. -/
def Routes (caller : Caller) (choose : ℕ → Worker) (ids : List ℕ)
    (s : Store T ℕ JudgmentList) : Prop :=
  ∀ k ∈ ids, ∃ row, s.committed k = some row ∧ choose k = chosenWorker caller row

/-- The choice only depends on the generation parameters. -/
theorem chosenWorker_congr {r r' : JudgmentList} (h : r'.generationParams = r.generationParams) :
    chosenWorker caller r' = chosenWorker caller r := by
  unfold chosenWorker routedWorker JudgmentList.isUbi
  rw [h]

theorem routes_persistent (hD : Suits D) (choose : ℕ → Worker) (ids : List ℕ) :
    Persistent D (Routes caller choose ids) := by
  intro s s' hevolves h k hk
  obtain ⟨row, hrow, hchoose⟩ := h k hk
  obtain ⟨row', hrow', hrel⟩ := hevolves k row hrow
  exact ⟨row', hrow', hchoose.trans (chosenWorker_congr (hD.params row row' hrel)).symm⟩

/-- Enqueueing the worker of a list that the caller has found. -/
theorem safe_enqueueJob (hD : Suits D) {choose : ℕ → Worker} {ids : List ℕ} (hk : k ∈ ids)
    (h : Routes caller choose ids w.table) :
    JudgmentSafe D code t j (fun _ w => Routes caller choose ids w.table) E
      (enqueueJob caller (choose k) k) w := by
  refine Discipline.safe_outside (fun w => Routes caller choose ids w.table) h
    (fun w w' hrely h => routes_persistent hD choose ids _ _ hrely.2.1 h)
    (fun w x' a h hinv hcond hexec => ?_) fun w x' a h _ _ _ => h
  obtain ⟨row, hrow, hchoose⟩ := h k hk
  obtain ⟨rfl, -⟩ := Prod.mk.inj (Option.some.inj hexec)
  rw [hchoose] at hcond ⊢
  exact hD.enqueued t w caller k row hrow hcond hinv.2

/-- Enqueueing the workers of the lists that pass. -/
theorem safe_enqueueAll (hD : Suits D) {choose : ℕ → Worker} {ids : List ℕ}
    (passes : ℕ → Bool) (h : Routes caller choose ids w.table) :
    JudgmentSafe D code t j (fun _ w => Routes caller choose ids w.table) E
      (Program.each (fun k => if passes k then enqueueJob caller (choose k) k else pure ()) ids)
      w := by
  refine Safe.each (fun k hk w h => ?_) h
  split
  · exact safe_enqueueJob hD hk h
  · exact h

/-! ## Dispatch -/

/-- The transaction of `t` has inserted the list. -/
def Inserted (t : T) (k : ℕ) (row : JudgmentList) (w : Beside T ℕ JudgmentList Queue) : Prop :=
  HoldsOnly t k w ∧ w.table.held t k = some (some row) ∧ w.table.committed k = none

theorem Inserted.rely {row : JudgmentList} (h : Inserted t k row w)
    (hrely : D.contract.rely t w w') : Inserted t k row w' := by
  obtain ⟨honly, hheld, hnew⟩ := h
  refine ⟨honly.rely hrely, (hrely.1.held k).trans hheld, ?_⟩
  rw [hrely.1.committed k (by simp [hheld])]
  exact hnew

theorem safe_insertGeneratingListAndEnqueue (hD : Suits D) (k : ℕ)
    {generationParams : Option GenerationParams} {worker : Worker} (nameTaken enqueued : Bool)
    (hworker : worker = chosenWorker .dispatch
      { status := .generating, generationParams := generationParams }) (h : Fresh t w) :
    JudgmentSafe D code t j (fun _ _ => True) (fun _ _ => True)
      (insertGeneratingListAndEnqueue k generationParams worker nameTaken enqueued) w := by
  unfold insertGeneratingListAndEnqueue
  split
  · exact Safe.seq Discipline.safe_rollback fun _ _ _ => trivial
  · generalize hnewRow :
      ({ status := .generating, generationParams := generationParams } : JudgmentList) = row
    rw [hnewRow] at hworker
    have hgood : D.Good row := hnewRow ▸ hD.inserted generationParams
    refine Discipline.safe_row (Fresh t) h (fun _ _ hrely h => Discipline.fresh_rely h hrely)
      (fun _ _ _ _ => hgood) (fun w s' a _ hinv _ hexec => link_exec hD hinv hexec hgood)
      (fun ho => by cases ho) fun w s' a h _ _ hexec => ?_
    obtain ⟨hnew, -, rfl⟩ := exec_insert hexec
    refine Discipline.safe_row (Inserted t k row) ⟨fun k' hk' => ?_, ?_, hnew⟩
      (fun _ _ hrely h => h.rely hrely) (fun _ _ _ _ => trivial)
      (fun w s' a _ hinv _ hexec => link_exec hD hinv hexec trivial)
      (fun _ w h k' r r₀ hr hr₀ => ?_) fun w s' a h _ _ hexec => ?_
    · rw [held_remember, held_write_of_key_ne hk']
      exact h.1 k'
    · exact held_write
    · by_cases hk : k' = k
      · subst hk
        simp [h.2.2] at hr₀
      · simp [h.1 k' hk] at hr
    · obtain ⟨rfl, -⟩ := Prod.mk.inj (Option.some.inj hexec)
      have hroutes : Routes .dispatch (fun _ => worker) [k] (w.table.commit t) := by
        intro k' hk'
        obtain rfl := List.mem_singleton.mp hk'
        refine ⟨row, ?_, hworker⟩
        rw [committed_commit, visible_of_written h.2.1]
      cases enqueued with
      | false => trivial
      | true =>
        have henqueue : JudgmentSafe D code t j
            (fun _ w => Routes .dispatch (fun _ => worker) [k] w.table) (fun _ _ => True)
            (enqueueJob .dispatch worker k) ⟨w.table.commit t, w.outside⟩ :=
          safe_enqueueJob hD List.mem_cons_self hroutes
        exact henqueue.post fun _ _ _ => trivial

/-! ## The sweeps -/

/-- The lists that a sweep finds have committed rows. -/
theorem safe_listGeneratingJudgmentListIds (hD : Suits D)
    (before : ℕ × JudgmentList → ℕ × JudgmentList → Bool) (h : Fresh t w) :
    JudgmentSafe D code t j
      (fun ids w => ∀ k ∈ ids, (w.table.committed k).isSome) (fun _ _ => True)
      (listGeneratingJudgmentListIds before) w := by
  refine Discipline.safe_row (Fresh t) h (fun _ _ hrely h => Discipline.fresh_rely h hrely)
    (fun _ _ _ _ => trivial) (fun w s' a _ hinv _ hexec => link_exec hD hinv hexec trivial)
    (fun ho => by cases ho) fun w s' a h _ _ hexec => ?_
  obtain ⟨rfl, rfl⟩ := Prod.mk.inj (Option.some.inj hexec)
  intro k hk
  obtain ⟨x, hx, rfl⟩ := List.mem_map.mp hk
  obtain ⟨y, hy, rfl⟩ := List.mem_map.mp hx
  have hvisible := (mem_hits hy).1
  rw [h.1.visible] at hvisible
  simp [hvisible]

/-- A session that reads, without an open transaction: its objects are former
versions of their rows. -/
def Reading (D : JudgmentDiscipline T) (t : T) (w : Beside T ℕ JudgmentList Queue) : Prop :=
  w.table.Clean t ∧ ∀ k l, w.table.identity t k = some l →
    ∃ v, w.table.committed k = some v ∧ D.Rel l v

theorem Reading.rely (h : Reading D t w) (hrely : D.contract.rely t w w') : Reading D t w' := by
  refine ⟨h.1.frame hrely.1, fun k l hl => ?_⟩
  rw [hrely.1.identity] at hl
  obtain ⟨v, hv, hrel⟩ := h.2 k l hl
  obtain ⟨v', hv', hrel'⟩ := hrely.2.1 k v hv
  exact ⟨v', hv', D.rel_trans _ _ _ hrel hrel'⟩

/-- The object of a reading session has the parameters of its row. -/
theorem Reading.object (hD : Suits D) (h : Reading D t w) {v : JudgmentList}
    (hv : w.table.committed k = some v) : ∃ l, w.table.object t k = some l ∧ D.Rel l v ∧
      v.generationParams = l.generationParams := by
  have hvisible : w.table.visible t k = some v := by rwa [h.1.visible]
  cases hid : w.table.identity t k with
  | none => exact ⟨v, by simp [Store.object, hvisible, hid], D.rel_refl v, rfl⟩
  | some l =>
    obtain ⟨v', hv', hrel⟩ := h.2 k l hid
    obtain rfl : v' = v := Option.some.inj (hv'.symm.trans hv)
    exact ⟨l, by simp [Store.object, hvisible, hid], hrel, hD.params l v' hrel⟩

/-- Loading the object of a row keeps a session reading. -/
theorem Reading.load (hD : Suits D) (h : Reading D t w) {v : JudgmentList}
    (hv : w.table.committed k = some v) : Reading D t ⟨w.table.load t k, w.outside⟩ := by
  obtain ⟨l, hl, hrel, -⟩ := h.object hD hv
  refine ⟨fun k' => by simpa using h.1 k', fun k' l' hl' => ?_⟩
  by_cases hk : k' = k
  · subst hk
    obtain rfl : l = l' := Option.some.inj ((identity_load hl).symm.trans hl')
    exact ⟨v, by simpa using hv, hrel⟩
  · obtain ⟨v', hv', hrel'⟩ := h.2 k' l' (by
      simpa [Store.load, hl, remember, hk] using hl')
    exact ⟨v', by simpa using hv', hrel'⟩

theorem listed_persistent (ids : List ℕ) :
    Persistent D fun s => ∀ k ∈ ids, (s.committed k).isSome := by
  intro s s' hevolves h k hk
  obtain ⟨r, hr⟩ := Option.isSome_iff_exists.mp (h k hk)
  obtain ⟨r', hr', -⟩ := hevolves k r hr
  simp [hr']

/-- The lists with generation parameters among those found. -/
theorem safe_ubiResumeIds (hD : Suits D) (ids : List ℕ) {S : Store T ℕ JudgmentList → Prop}
    (hS : Persistent D S) (h : Reading D t w) (hw : S w.table)
    (hids : ∀ k ∈ ids, (w.table.committed k).isSome) :
    JudgmentSafe D code t j
      (fun ubiIds w => S w.table ∧ (∀ k ∈ ubiIds, k ∈ ids) ∧ ∀ k ∈ ids,
        ∃ row, w.table.committed k = some row ∧ (k ∈ ubiIds ↔ row.generationParams.isSome))
      (fun _ _ => True) (ubiResumeIds ids) w := by
  induction ids generalizing w S with
  | nil => exact ⟨hw, fun k hk => hk, fun k hk => absurd hk List.not_mem_nil⟩
  | cons k ids ih =>
    refine Discipline.safe_row
      (fun w => Reading D t w ∧ S w.table ∧ ∀ k' ∈ k :: ids, (w.table.committed k').isSome)
      ⟨h, hw, hids⟩
      (fun _ _ hrely h => ⟨h.1.rely hrely, hS _ _ hrely.2.1 h.2.1,
        listed_persistent _ _ _ hrely.2.1 h.2.2⟩)
      (fun _ _ _ _ => trivial) (fun w s' a _ hinv _ hexec => link_exec hD hinv hexec trivial)
      (fun ho => by cases ho) fun w s' a h _ _ hexec => ?_
    obtain ⟨rfl, rfl⟩ := Prod.mk.inj (Option.some.inj hexec)
    obtain ⟨hreading, hw, hids⟩ := h
    obtain ⟨v, hv⟩ := Option.isSome_iff_exists.mp (hids k List.mem_cons_self)
    obtain ⟨l, hl, -, hparams⟩ := hreading.object hD hv
    -- the rest of the loop keeps what the first answer said
    have hfirst : Persistent D fun s => S s ∧ ∃ row, s.committed k = some row ∧
        row.generationParams = l.generationParams := by
      rintro s s' hevolves ⟨hs, row, hrow, hsame⟩
      obtain ⟨row', hrow', hrel⟩ := hevolves k row hrow
      exact ⟨hS s s' hevolves hs, row', hrow', (hD.params row row' hrel).trans hsame⟩
    have hrest := ih (w := ⟨w.table.load t k, w.outside⟩) hfirst (hreading.load hD hv)
      ⟨hS _ _ (Discipline.evolves_refl (by simp)) hw, v, by simpa using hv, hparams⟩
      fun k' hk' => by simpa using hids k' (List.mem_cons_of_mem k hk')
    rw [hl]
    refine Safe.bind (p := ubiResumeIds ids) (hrest.mono ?_ fun _ _ h => h)
    rintro ubiIds w ⟨⟨hs, row, hrow, hsame⟩, hsub, hall⟩
    refine ⟨hs, fun k' hk' => ?_, fun k' hk' => ?_⟩
    · split at hk'
      · exact (List.mem_cons.mp hk').elim (fun h => h ▸ List.mem_cons_self)
          fun h => List.mem_cons_of_mem k (hsub k' h)
      · exact List.mem_cons_of_mem k (hsub k' hk')
    · by_cases hfirst : k' = k
      · subst hfirst
        refine ⟨row, hrow, ?_⟩
        rw [hsame]
        cases hsome : l.generationParams.isSome with
        | true => simp [hsome]
        | false =>
          have hnot : k' ∉ ubiIds := by
            intro hk
            obtain ⟨row', hrow', hiff⟩ := hall k' (hsub k' hk)
            obtain rfl : row' = row := Option.some.inj (hrow'.symm.trans hrow)
            have hsome' := hiff.mp hk
            simp [hsame, hsome] at hsome'
          simp [hsome, hnot]
      · obtain ⟨row', hrow', hiff⟩ := hall k' ((List.mem_cons.mp hk').resolve_left hfirst)
        refine ⟨row', hrow', ?_⟩
        rw [← hiff]
        split
        · simp [hfirst]
        · rfl

/-- The session in which a sweep finds the generating lists. -/
theorem safe_findGenerating (hD : Suits D)
    (before : ℕ × JudgmentList → ℕ × JudgmentList → Bool) (h : Fresh t w) :
    JudgmentSafe D code t j
      (fun ids w => Fresh t w ∧ ∀ k ∈ ids, (w.table.committed k).isSome) (fun _ => Fresh t)
      (inSession (listGeneratingJudgmentListIds before)) w :=
  Discipline.safe_inSession (safe_listGeneratingJudgmentListIds hD before h)
    (fun ids _ _ hrely h => listed_persistent ids _ _ hrely.2.1 h) fun _ _ h => h

/-- The sweep at worker boot. -/
theorem safe_onStartup (hD : Suits D) (before : ℕ × JudgmentList → ℕ × JudgmentList → Bool)
    (h : Fresh t w) :
    JudgmentSafe D code t j (fun _ _ => True) (fun _ _ => True) (onStartup before) w := by
  refine Safe.bind ((safe_findGenerating hD before h).mono ?_ fun _ _ _ => trivial)
  rintro ids w ⟨hfresh, hids⟩
  have hreading : Reading D t w := ⟨hfresh.1, fun k l hl => by simp [hfresh.2 k] at hl⟩
  have htrue : Persistent D fun _ => True := fun _ _ _ h => h
  -- what the session has read remains true of the rows when it is closed
  have hanswer : ∀ ubiIds : List ℕ, Persistent D fun s => ∀ k ∈ ids,
      ∃ row, s.committed k = some row ∧ (k ∈ ubiIds ↔ row.generationParams.isSome) := by
    intro ubiIds s s' hevolves h k hk
    obtain ⟨row, hrow, hiff⟩ := h k hk
    obtain ⟨row', hrow', hrel⟩ := hevolves k row hrow
    exact ⟨row', hrow', by rw [hD.params row row' hrel]; exact hiff⟩
  have hbody : JudgmentSafe D code t j (fun ubiIds w => ∀ k ∈ ids, ∃ row,
      w.table.committed k = some row ∧ (k ∈ ubiIds ↔ row.generationParams.isSome))
      (fun _ _ => True) (ubiResumeIds ids) w :=
    (safe_ubiResumeIds hD ids htrue hreading trivial hids).post fun _ _ h => h.2.2
  have hsession := Discipline.safe_inSession hbody
    (fun ubiIds _ _ hrely h => hanswer ubiIds _ _ hrely.2.1 h) fun _ _ h => h
  refine Safe.bind (hsession.mono ?_ fun _ _ _ => trivial)
  rintro ubiIds w ⟨-, hall⟩
  have hroutes : Routes .onStartup (fun k => if k ∈ ubiIds then .generateJudgmentsFromUbi
      else .generateJudgmentsLlm) ids w.table := by
    intro k hk
    obtain ⟨row, hrow, hiff⟩ := hall k hk
    exact ⟨row, hrow, by simp [chosenWorker, hiff]⟩
  exact (safe_enqueueAll hD (fun _ => true) hroutes).post fun _ _ _ => trivial

/-- The resume tick. -/
theorem safe_resumeStuckJudgmentLists (hD : Suits D)
    (before : ℕ × JudgmentList → ℕ × JudgmentList → Bool) (passes : ℕ → Bool) (h : Fresh t w) :
    JudgmentSafe D code t j (fun _ _ => True) (fun _ _ => True)
      (resumeStuckJudgmentLists before passes) w := by
  refine Safe.bind ((safe_findGenerating hD before h).mono ?_ fun _ _ _ => trivial)
  rintro ids w ⟨-, hids⟩
  have hroutes : Routes .resumeTick (fun _ => .generateJudgmentsLlm) ids w.table := by
    intro k hk
    obtain ⟨row, hrow⟩ := Option.isSome_iff_exists.mp (hids k hk)
    exact ⟨row, hrow, rfl⟩
  exact (safe_enqueueAll hD passes hroutes).post fun _ _ _ => trivial

/-- A discipline that suits the judgment jobs is a contract that they meet. -/
theorem Suits.met (hD : Suits D) : D.contract.Met (judgmentSystem T) := by
  refine Discipline.contract_met fun t j w _ _ hfresh => ?_
  cases j with
  | startLlm k nameTaken enqueued =>
    exact safe_insertGeneratingListAndEnqueue hD k nameTaken enqueued rfl hfresh
  | startUbi k nameTaken enqueued =>
    exact safe_insertGeneratingListAndEnqueue hD k nameTaken enqueued rfl hfresh
  | onStartup before => exact safe_onStartup hD before hfresh
  | resume before passes => exact safe_resumeStuckJudgmentLists hD before passes hfresh
  | deliverLlm k run => exact safe_generateJudgmentsLlm hD rfl run hfresh
  | deliverUbi k run => exact safe_generateJudgmentsFromUbi hD rfl run hfresh

end RelyLoop.Judgments
