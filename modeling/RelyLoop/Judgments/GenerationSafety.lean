import RelyLoop.Judgments.GenerationRows
import RelyLoop.Concurrency.RelyGuarantee

/-!
# The judgment worker is safe

A query is `Judged` when the engine has answered it and every document of the
answer has its row. The worker completes a list when every query is judged: a
processed query is judged because no search has failed softly, and a query with
rows is judged already (`Resumable`).
-/

namespace RelyLoop.Judgments.Generation

open Concurrency Python Eval

/-- The engine has answered the search for a query, with these documents. -/
def EngineReply.Answers (reply : EngineReply) (queryId : String) (docIds : List String) : Prop :=
  (reply.call queryId).AnsweredAll ∧ ∃ hitsByQid,
    (reply.call queryId).searchBatch false = .ok hitsByQid ∧
      docIds = ((hitsByQid.get? queryId).getD []).map ScoredHit.docId

namespace GenerationWorld

/-- The committed row of a query and a document. The key is unique, so it is the only one. -/
def judgment (w : GenerationWorld) (queryId docId : String) : Option Judgment :=
  w.committed.judgments.get? (queryId, docId)

/-- The engine has answered the query, with no hits or with hits all of whose
documents have their row. -/
def Judged (w : GenerationWorld) (queryId : String) : Prop :=
  ∃ reply docIds, (queryId, reply) ∈ w.answers ∧ reply.Answers queryId docIds ∧
    ∀ docId ∈ docIds, (w.judgment queryId docId).isSome

/-- The committed status. -/
def HasStatus (w : GenerationWorld) (status : JudgmentListStatus) : Prop :=
  ∃ list, w.committed.list = some list ∧ list.status = status

/-- While the list is generating, a query that has rows is judged. -/
def Resumable (w : GenerationWorld) : Prop :=
  w.HasStatus .generating → ∀ queryId docId, (w.judgment queryId docId).isSome → w.Judged queryId

/-- The open session has changed nothing. -/
def Unchanged (w : GenerationWorld) : Prop := w.working = w.committed

/-- The world after the session is closed. -/
def closed (w : GenerationWorld) : GenerationWorld := { w with working := w.committed }

end GenerationWorld

open GenerationWorld

variable {w w' w'' : GenerationWorld} {queryId docId : String}

/-- Rows and answers are only added. -/
structure Grown (w w' : GenerationWorld) : Prop where
  rows : ∀ queryId docId row, w.judgment queryId docId = some row →
    w'.judgment queryId docId = some row
  answers : ∀ answer ∈ w.answers, answer ∈ w'.answers

theorem Grown.refl (w : GenerationWorld) : Grown w w := ⟨fun _ _ _ h => h, fun _ h => h⟩

theorem Grown.trans (h : Grown w w') (h' : Grown w' w'') : Grown w w'' :=
  ⟨fun q d row hrow => h'.rows q d row (h.rows q d row hrow),
    fun answer ha => h'.answers answer (h.answers answer ha)⟩

/-- A judged query stays judged. -/
theorem GenerationWorld.Judged.grown (h : w.Judged queryId) (hgrown : Grown w w') :
    w'.Judged queryId := by
  obtain ⟨reply, docIds, hanswer, hanswers, hrows⟩ := h
  refine ⟨reply, docIds, hgrown.answers _ hanswer, hanswers, fun docId hdoc => ?_⟩
  obtain ⟨row, hrow⟩ := Option.isSome_iff_exists.mp (hrows docId hdoc)
  simp [hgrown.rows queryId docId row hrow]

/-- The rows of a query are persisted in one step: there were none, and now every
document of an answer has its LLM row, and no other has one. -/
def PersistedWhole (queryId : String) (w w' : GenerationWorld) : Prop :=
  (∀ docId, w.judgment queryId docId = none) ∧ ∃ reply docIds,
    (queryId, reply) ∈ w'.answers ∧ reply.Answers queryId docIds ∧
      ∀ docId, ((w'.judgment queryId docId).isSome ↔ docId ∈ docIds) ∧
        ∀ row, w'.judgment queryId docId = some row → row.source = .llm

/-- What a step does to the rows: a list that becomes complete has all its queries
judged, the rows of a query are persisted as a whole or not at all, and no row that
is present changes. -/
structure KeepsJudgments (querySet : List String) (w w' : GenerationWorld) : Prop where
  completes : w'.HasStatus .complete → ¬w.HasStatus .complete → ∀ q ∈ querySet, w'.Judged q
  wholeQueries : ∀ q, (∀ d, w'.judgment q d = w.judgment q d) ∨ PersistedWhole q w w'
  kept : ∀ q d row, w.judgment q d = some row → w'.judgment q d = some row

/-- A step that commits nothing. -/
theorem keepsJudgments_of_committed_eq {querySet : List String} (h : w'.committed = w.committed) :
    KeepsJudgments querySet w w' where
  completes hcomplete hnot := by
    have hsame : w.HasStatus .complete := by simpa [HasStatus, h] using hcomplete
    exact absurd hsame hnot
  wholeQueries q := Or.inl fun d => by simp [judgment, h]
  kept q d row hrow := by simpa [judgment, h] using hrow

/-- A step that commits nothing keeps the list resumable. -/
theorem resumable_of_committed_eq (h : w'.committed = w.committed)
    (hanswers : ∀ answer ∈ w.answers, answer ∈ w'.answers) (hw : w.Resumable) : w'.Resumable := by
  have hgrown : Grown w w' := ⟨fun q d row hrow => by simpa [judgment, h] using hrow, hanswers⟩
  intro hstatus q d hrow
  have hbefore : w.Judged q :=
    hw (by simpa [HasStatus, h] using hstatus) q d (by simpa [judgment, h] using hrow)
  exact hbefore.grown hgrown

/-! ## The contract -/

/-- The engine's answer to a search does not fail softly. -/
def NoSoftFailure (_ : Unit) (_ : GenerationWorld) : GenerationOp → Prop
  | .searchBatch queryId reply => ¬(reply.call queryId).SoftFails
  | _ => True

/-- The contract of the deliveries: nobody else works on the list. -/
def generationContract (querySet : List String) :
    Contract Unit GenerationRun GenerationWorld GenerationOp where
  inv := Resumable
  change _ := KeepsJudgments querySet
  rely _ w w' := w = w'
  cond := NoSoftFailure
  rely_refl _ _ := rfl
  rely_trans _ _ _ _ h h' := h.trans h'

variable {querySet : List String} {run : GenerationRun} {α β : Type}
variable {R : GenerationWorld → Prop} {Q : α → GenerationWorld → Prop}
variable {E : GenerationError → GenerationWorld → Prop}

/-- `p` is safe from `w` on. -/
abbrev GenerationSafe (querySet : List String) (run : GenerationRun)
    (Q : α → GenerationWorld → Prop) (E : GenerationError → GenerationWorld → Prop) (p : Db α)
    (w : GenerationWorld) : Prop :=
  Safe (generationSystem querySet) (generationContract querySet) () run Q E p w

/-- An operation that keeps the contract. -/
theorem safe_perform {o : GenerationOp} {R : o.Res → GenerationWorld → Prop}
    (hkeep : w.Resumable →
      (execGeneration w o).1.Resumable ∧ KeepsJudgments querySet w (execGeneration w o).1)
    (hpost : w.Resumable → NoSoftFailure () w o →
      R (execGeneration w o).2 (execGeneration w o).1) :
    GenerationSafe querySet run R E (Program.perform o) w := by
  intro w₁ hrely hinv hcond w₂ r hexec
  obtain rfl : w = w₁ := hrely
  obtain ⟨rfl, rfl⟩ := Prod.mk.inj (Option.some.inj hexec)
  obtain ⟨hresumable, hchange⟩ := hkeep hinv
  exact ⟨⟨hresumable, hchange, fun t' ht' => absurd rfl ht'⟩, hpost hinv hcond⟩

/-- An operation that commits nothing. -/
theorem safe_quiet {o : GenerationOp} {R : o.Res → GenerationWorld → Prop}
    (hcommitted : (execGeneration w o).1.committed = w.committed)
    (hanswers : ∀ answer ∈ w.answers, answer ∈ (execGeneration w o).1.answers)
    (hpost : w.Resumable → NoSoftFailure () w o →
      R (execGeneration w o).2 (execGeneration w o).1) :
    GenerationSafe querySet run R E (Program.perform o) w :=
  safe_perform (fun hinv => ⟨resumable_of_committed_eq hcommitted hanswers hinv,
    keepsJudgments_of_committed_eq hcommitted⟩) hpost

/-- Closing the session leads to `closed`. -/
theorem safe_close (h : R w.closed) :
    GenerationSafe querySet run (fun _ => R) E (Program.perform GenerationOp.close) w :=
  safe_quiet rfl (fun _ h => h) fun _ _ => h

/-- A session is closed in the end, whether its body returns or raises. -/
theorem safe_inSession {body : Db α}
    (h : GenerationSafe querySet run (fun a w => Q a w.closed) (fun e w => E e w.closed) body w) :
    GenerationSafe querySet run Q E (inSession body) w := by
  refine Safe.handle (Safe.bind ?_)
  refine h.mono (fun a w hQ => ?_) fun e w hE => ?_
  · exact Safe.seq (safe_close hQ) fun _ _ hQ => hQ
  · exact Safe.seq (safe_close hE) fun _ _ hE => hE

theorem closed_of_unchanged (h : w.Unchanged) : w.closed = w := by
  cases w
  simp only [Unchanged] at h
  simp [closed, h]

theorem unchanged_closed : w.closed.Unchanged := rfl

/-- Reading the list in a session that has changed nothing. -/
theorem safe_getJudgmentList (h : w.Unchanged) :
    GenerationSafe querySet run (fun list w' => w' = w ∧ list = w.committed.list) E
      getJudgmentList w :=
  safe_quiet rfl (fun _ h => h) fun _ _ => ⟨rfl, congrArg ListTables.list h⟩

/-! ## The end of a list -/

theorem setStatus_status {status : JudgmentListStatus} {failedReason : Option String}
    (list : JudgmentList) : (setStatus status failedReason list list).status = status := by
  by_cases hsame : list.status = status
  · simp [setStatus, hsame]
  · simp [setStatus, hsame]

/-- The world in which the session has set the status of the loaded list. -/
def GenerationWorld.finishing (w : GenerationWorld) (status : JudgmentListStatus)
    (failedReason : Option String) (list : JudgmentList) : GenerationWorld :=
  { w with working := { w.committed with list := some (setStatus status failedReason list list) } }

/-- The commit of a terminal status. -/
theorem safe_commitFinishing {status : JudgmentListStatus} {failedReason : Option String}
    {list : JudgmentList} (hterminal : status ≠ .generating)
    (hjudged : status = .complete → ∀ q ∈ querySet, w.Judged q) :
    GenerationSafe querySet run (fun _ => Unchanged) E commit
      (w.finishing status failedReason list) := by
  refine safe_perform (fun hinv => ⟨?_, ?_⟩) fun _ _ => rfl
  · rintro ⟨list', hlist', hstatus⟩
    obtain rfl : setStatus status failedReason list list = list' := Option.some.inj hlist'
    exact absurd ((setStatus_status list).symm.trans hstatus) hterminal
  · have hgrown : Grown w (execGeneration (w.finishing status failedReason list) .commit).1 :=
      ⟨fun _ _ _ h => h, fun _ h => h⟩
    refine ⟨?_, fun q => Or.inl fun d => rfl, fun q d row h => h⟩
    rintro ⟨list', hlist', hstatus⟩ - q hq
    obtain rfl : setStatus status failedReason list list = list' := Option.some.inj hlist'
    have hcomplete : status = .complete := (setStatus_status list).symm.trans hstatus
    exact (hjudged hcomplete q hq).grown hgrown

/-- `update_judgment_list_status` and its commit. -/
theorem safe_finish {status : JudgmentListStatus} {failedReason : Option String}
    (h : w.Unchanged) (hterminal : status ≠ .generating)
    (hjudged : status = .complete → ∀ q ∈ querySet, w.Judged q) :
    GenerationSafe querySet run (fun _ => Unchanged) (fun _ => Unchanged)
      ((updateJudgmentListStatus status failedReason).bind fun _ => commit) w := by
  refine Safe.seq (Q := fun _ w' => ∃ list, w' = w.finishing status failedReason list)
    (Safe.seq (safe_getJudgmentList h) ?_) ?_
  · rintro list w' ⟨rfl, rfl⟩
    cases hlist : w'.committed.list with
    | none => exact h
    | some loaded =>
      refine safe_quiet rfl (fun _ h => h) fun _ _ => ⟨loaded, ?_⟩
      have hworking : w'.working = w'.committed := h
      simp [execGeneration, finishing, hworking, hlist]
  · rintro _ w' ⟨list, rfl⟩
    exact safe_commitFinishing hterminal hjudged

theorem safe_failJudgmentList (failedReason : String) (h : w.Unchanged) :
    GenerationSafe querySet run (fun _ => Unchanged) (fun _ => Unchanged)
      (failJudgmentList failedReason) w :=
  safe_finish h (by decide) fun hcomplete => by cases hcomplete

theorem safe_completeJudgmentList (h : w.Unchanged) (hjudged : ∀ q ∈ querySet, w.Judged q) :
    GenerationSafe querySet run (fun _ => Unchanged) (fun _ => Unchanged) completeJudgmentList w :=
  safe_finish h (by decide) fun _ => hjudged

/-- Failing the list in a session of its own. -/
theorem safe_failInSession (failedReason : String) (h : w.Unchanged) :
    GenerationSafe querySet run (fun _ => Unchanged) (fun _ => Unchanged)
      (inSession (failJudgmentList failedReason)) w :=
  safe_inSession ((safe_failJudgmentList failedReason h).mono
    (fun _ _ _ => unchanged_closed) fun _ _ _ => unchanged_closed)

/-! ## One query -/

/-- What the processing of a query leaves: the session has nothing to commit, the
list is still generating, and rows and answers were only added. -/
structure Processed (w w' : GenerationWorld) : Prop where
  unchanged : w'.Unchanged
  generating : w'.HasStatus .generating
  grown : Grown w w'

theorem Processed.trans (h : Processed w w') (h' : Processed w' w'') : Processed w w'' :=
  ⟨h'.unchanged, h'.generating, h.grown.trans h'.grown⟩

/-- Raising, or going on from the same state. -/
theorem safe_raiseIfAny {raised : Option String} (h : R w) (hE : ∀ e, E e w) :
    GenerationSafe querySet run (fun _ => R) E (raiseIfAny raised) w := by
  cases raised with
  | none => exact h
  | some typeName => exact hE (.other typeName)

theorem safe_checkBudget {settings : GenerationSettings} {query : QueryRun} (h : R w)
    (hE : ∀ e, E e w) :
    GenerationSafe querySet run (fun _ => R) E (checkBudget settings query) w := by
  unfold checkBudget
  split
  · split
    · exact hE _
    · exact hE _
    · split
      · exact hE _
      · exact h
  · exact h

/-- A query without counted rows has none. -/
theorem judgment_eq_none_of_count (h : w.Unchanged)
    (hcount : w.working.countJudgments queryId = 0) (docId : String) :
    w.judgment queryId docId = none := by
  have hworking : w.working = w.committed := h
  rw [hworking, ListTables.countJudgments, List.length_eq_zero_iff, List.filter_eq_nil_iff] at hcount
  by_contra hpresent
  obtain ⟨row, hrow⟩ := Option.ne_none_iff_exists'.mp hpresent
  have hentry := (Dict.get?_eq_some_iff _ _ _).mp hrow
  have hnot := hcount ((queryId, docId), row) hentry
  simp at hnot

/-- A query with counted rows has one. -/
theorem exists_judgment_of_count (h : w.Unchanged)
    (hcount : 0 < w.working.countJudgments queryId) :
    ∃ docId, (w.judgment queryId docId).isSome := by
  have hworking : w.working = w.committed := h
  rw [hworking, ListTables.countJudgments] at hcount
  obtain ⟨⟨⟨q, d⟩, row⟩, hentry⟩ := List.exists_mem_of_length_pos hcount
  obtain ⟨hmem, hquery⟩ := List.mem_filter.mp hentry
  obtain rfl : q = queryId := by simpa using hquery
  have hrow : w.judgment q d = some row := (Dict.get?_eq_some_iff _ _ _).mpr hmem
  exact ⟨d, by simp [hrow]⟩

/-- The world in which the rows of a query are committed. -/
def GenerationWorld.persisted (w : GenerationWorld) (rows : List ((String × String) × Judgment)) :
    GenerationWorld :=
  let tables := { w.committed with judgments := insertAbsent w.committed.judgments rows }
  { w with committed := tables, working := tables }

section Persisting

variable {reply : EngineReply} {docIds : List String}
variable {rows : List ((String × String) × Judgment)}

theorem grown_persisted : Grown w (w.persisted rows) :=
  ⟨fun _ _ _ h => insertAbsent_kept h, fun _ h => h⟩

/-- Every document of the answer has its row. -/
theorem judgment_persisted_of_covered (hrows : RowsOf queryId docIds rows) {docId : String}
    (hdoc : docId ∈ docIds) : ((w.persisted rows).judgment queryId docId).isSome := by
  obtain ⟨row, hrow, hkey⟩ := hrows.covers docId hdoc
  have hpresent : ((w.persisted rows).judgment row.1.1 row.1.2).isSome :=
    insertAbsent_present hrow
  rwa [hkey] at hpresent

/-- After the commit, the rows of the query are those of the documents of the answer. -/
theorem persistedWhole_persisted (hanswer : (queryId, reply) ∈ w.answers)
    (hanswers : reply.Answers queryId docIds) (hrows : RowsOf queryId docIds rows)
    (hnone : ∀ docId, w.judgment queryId docId = none) :
    PersistedWhole queryId w (w.persisted rows) := by
  have hinserted : ∀ docId row, (w.persisted rows).judgment queryId docId = some row →
      ((queryId, docId), row) ∈ rows := by
    intro docId row h
    rcases of_insertAbsent h with hold | hnew
    · have habsent := hnone docId
      rw [judgment, hold] at habsent
      cases habsent
    · exact hnew
  refine ⟨hnone, reply, docIds, hanswer, hanswers, fun docId =>
    ⟨⟨fun h => ?_, judgment_persisted_of_covered hrows⟩, fun row h => ?_⟩⟩
  · obtain ⟨row, hrow⟩ := Option.isSome_iff_exists.mp h
    exact (hrows.llm _ (hinserted docId row hrow)).2.1
  · exact (hrows.llm _ (hinserted docId row h)).2.2

/-- The rows of the other queries stay as they are. -/
theorem judgment_persisted_of_ne (hrows : RowsOf queryId docIds rows)
    {q : String} (hq : q ≠ queryId) (d : String) :
    (w.persisted rows).judgment q d = w.judgment q d := by
  cases hafter : (w.persisted rows).judgment q d with
  | none =>
    cases hbefore : w.judgment q d with
    | none => rfl
    | some row =>
      have hgrown : Grown w (w.persisted rows) := grown_persisted
      have hkept := hgrown.rows q d row hbefore
      simp [hafter] at hkept
  | some row =>
    rcases of_insertAbsent hafter with hold | hnew
    · exact hold.symm
    · exact absurd (hrows.llm _ hnew).1 hq

/-- Inserting and committing the rows of a query. -/
theorem safe_persist (hunchanged : w.Unchanged) (hgenerating : w.HasStatus .generating)
    (hanswer : (queryId, reply) ∈ w.answers) (hanswers : reply.Answers queryId docIds)
    (hrows : RowsOf queryId docIds rows)
    (hnone : ∀ docId, w.judgment queryId docId = none) :
    GenerationSafe querySet run
      (fun ok w' => Processed w w' ∧ (ok = true → w'.Judged queryId)) E
      ((bulkCreateJudgments rows).bind fun _ => commit.bind fun _ => .done true) w := by
  have hworking : w.working = w.committed := hunchanged
  have hwhole := persistedWhole_persisted hanswer hanswers hrows hnone
  have hjudged : (w.persisted rows).Judged queryId :=
    ⟨reply, docIds, hanswer, hanswers, fun _ => judgment_persisted_of_covered hrows⟩
  refine Safe.seq (Q := fun _ w' => w' = { w with working := (w.persisted rows).working })
    (safe_quiet rfl (fun _ h => h) fun _ _ => ?_) ?_
  · simp [execGeneration, persisted, hworking]
  · rintro _ w' rfl
    refine Safe.seq (Q := fun _ w' => w' = w.persisted rows) (safe_perform (fun hinv => ?_)
      fun _ _ => rfl) ?_
    · change (w.persisted rows).Resumable ∧ KeepsJudgments querySet
        { w with working := (w.persisted rows).working } (w.persisted rows)
      refine ⟨fun _ q d hrow => ?_, fun hcomplete hnot => absurd hcomplete hnot, fun q => ?_,
        grown_persisted.rows⟩
      · by_cases hq : q = queryId
        · exact hq ▸ hjudged
        · rw [judgment_persisted_of_ne hrows hq] at hrow
          have hbefore : w.Judged q := hinv hgenerating q d hrow
          exact hbefore.grown grown_persisted
      · by_cases hq : q = queryId
        · exact Or.inr (hq ▸ hwhole)
        · exact Or.inl (judgment_persisted_of_ne hrows hq)
    · rintro _ w' rfl
      exact ⟨⟨rfl, hgenerating, grown_persisted⟩, fun _ => hjudged⟩

end Persisting

/-- A search that succeeds without a soft failure is an answer to the query. -/
theorem answers_of_ok {reply : EngineReply} {hitsByQid : Dict String (List ScoredHit)}
    (hok : (reply.call queryId).searchBatch false = .ok hitsByQid)
    (hcond : ¬(reply.call queryId).SoftFails) :
    reply.Answers queryId (((hitsByQid.get? queryId).getD []).map ScoredHit.docId) := by
  have hhard : ¬(reply.call queryId).HardFails := (searchBatch_isOk_iff _).mp ⟨hitsByQid, hok⟩
  exact ⟨(answeredAll_iff hhard).mpr hcond, hitsByQid, hok, rfl⟩

/-- `process_judgment_query`: a query that counts as processed is judged. -/
theorem safe_processJudgmentQuery {settings : GenerationSettings} {query : QueryRun}
    (hunchanged : w.Unchanged) (hgenerating : w.HasStatus .generating) :
    GenerationSafe querySet run
      (fun ok w' => Processed w w' ∧ (ok = true → w'.Judged queryId)) (fun _ w' => Processed w w')
      (processJudgmentQuery settings queryId query) w := by
  have hself : Processed w w := ⟨hunchanged, hgenerating, Grown.refl w⟩
  refine Safe.seq (Q := fun existing w' => w' = w ∧ existing = w.working.countJudgments queryId ∧
    w.Resumable) (safe_quiet rfl (fun _ h => h) fun hinv _ => ⟨rfl, rfl, hinv⟩) ?_
  rintro existing w' ⟨rfl, rfl, hresumable⟩
  split
  · rename_i hcount
    obtain ⟨docId, hrow⟩ := exists_judgment_of_count hunchanged hcount
    exact ⟨hself, fun _ => hresumable hgenerating queryId docId hrow⟩
  rename_i hcount
  have hnone : ∀ docId, w'.judgment queryId docId = none :=
    judgment_eq_none_of_count hunchanged (by omega)
  refine Safe.seq (safe_checkBudget (R := fun w₁ => w₁ = w') rfl fun _ => hself) ?_
  rintro _ w₁ rfl
  split
  · exact ⟨hself, fun h => by cases h⟩
  refine Safe.seq (Q := fun found w₂ => Processed w₁ w₂ ∧ (queryId, query.reply) ∈ w₂.answers ∧
    found = (query.reply.call queryId).searchBatch false ∧
    ¬(query.reply.call queryId).SoftFails ∧ ∀ docId, w₂.judgment queryId docId = none)
    (safe_quiet rfl (fun answer h => List.mem_append_left _ h) fun _ hcond =>
      ⟨⟨hunchanged, hgenerating, fun _ _ _ h => h, fun answer h => List.mem_append_left _ h⟩,
        List.mem_append_right _ (List.mem_singleton_self _), rfl, hcond, hnone⟩) ?_
  rintro found w₂ ⟨hprocessed, hanswer, rfl, hcond, hnone₂⟩
  cases hfound : (query.reply.call queryId).searchBatch false with
  | error e => exact ⟨hprocessed, fun h => by cases h⟩
  | ok hitsByQid =>
    have hanswers := answers_of_ok hfound hcond
    dsimp only
    generalize (hitsByQid.get? queryId).getD [] = hits at hanswers ⊢
    split
    · rename_i hempty
      refine ⟨hprocessed, fun _ => ⟨query.reply, _, hanswer, hanswers, fun docId hdoc => ?_⟩⟩
      simp [hempty] at hdoc
    · cases hrated : rateHits settings queryId query hits with
      | error e => exact hprocessed
      | ok rated =>
        cases rated with
        | none => exact ⟨hprocessed, fun h => by cases h⟩
        | some rows =>
          refine Safe.seq (safe_raiseIfAny (R := fun w₃ => w₃ = w₂) rfl fun _ => hprocessed) ?_
          rintro _ w₃ rfl
          refine (safe_persist hprocessed.unchanged hprocessed.generating hanswer hanswers
            (rateHits_rows hrated) hnone₂).post ?_
          rintro ok w₄ ⟨hpersisted, hjudged⟩
          exact ⟨hprocessed.trans hpersisted, hjudged⟩

end RelyLoop.Judgments.Generation
