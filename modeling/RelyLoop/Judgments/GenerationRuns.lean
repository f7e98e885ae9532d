import RelyLoop.Judgments.GenerationSafety

/-!
# When a list is complete

In the runs in which no search fails softly, a list becomes complete only when
every query has been answered and every document of the answers has its row; the
rows of a query are persisted together, and rows that are present never change.
-/

namespace RelyLoop.Judgments.Generation

open Concurrency Python Eval GenerationWorld

variable {w w' : GenerationWorld} {querySet : List String} {run : GenerationRun}

/-! ## The worker -/

/-- A round of the query loop. -/
theorem safe_judgeQuery (queryId : String) (hunchanged : w.Unchanged)
    (hgenerating : w.HasStatus .generating) :
    GenerationSafe querySet run
      (fun r w' => w'.Unchanged ∧ ∀ ok, r = some ok →
        Processed w w' ∧ (ok = true → w'.Judged queryId)) (fun _ => Unchanged)
      (judgeQuery run queryId) w := by
  have hprocess : GenerationSafe querySet run
      (fun ok w' => Processed w w' ∧ (ok = true → w'.Judged queryId)) (fun _ w' => Processed w w')
      (processJudgmentQuery run.settings queryId (run.query queryId)) w :=
    safe_processJudgmentQuery hunchanged hgenerating
  refine safe_inSession (Safe.handle (Safe.bind (hprocess.mono ?_ ?_)))
  · rintro ok w' ⟨hprocessed, hjudged⟩
    refine ⟨unchanged_closed, fun ok' hok' => ?_⟩
    obtain rfl : ok = ok' := Option.some.inj hok'
    rw [closed_of_unchanged hprocessed.unchanged]
    exact ⟨hprocessed, hjudged⟩
  · intro e w' hprocessed
    split
    · rename_i reason _
      refine Safe.seq ((safe_failInSession reason hprocessed.unchanged).mono
        (fun _ _ h => h) fun _ _ _ => unchanged_closed) fun _ w'' _ => ?_
      exact ⟨unchanged_closed, fun ok hok => by cases hok⟩
    · exact unchanged_closed

/-- The query loop: when no query was skipped, all of them are judged. -/
theorem safe_judgeQueries (skipped : ℕ) (queryIds : List String) (hunchanged : w.Unchanged)
    (hgenerating : w.HasStatus .generating) :
    GenerationSafe querySet run
      (fun r w' => w'.Unchanged ∧ ∀ skipped', r = some skipped' → Grown w w' ∧
        skipped ≤ skipped' ∧ (skipped' = skipped → ∀ q ∈ queryIds, w'.Judged q))
      (fun _ => Unchanged) (judgeQueries run skipped queryIds) w := by
  induction queryIds generalizing w skipped with
  | nil =>
    refine ⟨hunchanged, fun skipped' h => ?_⟩
    obtain rfl : skipped = skipped' := Option.some.inj h
    exact ⟨Grown.refl w, le_rfl, fun _ q hq => by cases hq⟩
  | cons queryId queryIds ih =>
    refine Safe.seq (safe_judgeQuery queryId hunchanged hgenerating) ?_
    rintro r w₁ ⟨hunchanged₁, hround⟩
    cases r with
    | none => exact ⟨hunchanged₁, fun skipped' h => by cases h⟩
    | some ok =>
      obtain ⟨hprocessed, hjudged⟩ := hround ok rfl
      refine (ih _ hunchanged₁ hprocessed.generating).post ?_
      rintro r w₂ ⟨hunchanged₂, hrest⟩
      refine ⟨hunchanged₂, fun skipped' hr => ?_⟩
      obtain ⟨hgrown, hle, hall⟩ := hrest skipped' hr
      cases ok with
      | false =>
        have hmore : skipped + 1 ≤ skipped' := hle
        exact ⟨hprocessed.grown.trans hgrown, by omega, fun h => by omega⟩
      | true =>
        refine ⟨hprocessed.grown.trans hgrown, hle, fun h q hq => ?_⟩
        rcases List.mem_cons.mp hq with rfl | hq
        · exact (hjudged rfl).grown hgrown
        · exact hall h q hq

/-- The first session: the run goes on with a list that is generating. -/
theorem safe_entry (hunchanged : w.Unchanged) :
    GenerationSafe querySet run
      (fun goesOn w' => w'.Unchanged ∧ (goesOn = true → w'.HasStatus .generating))
      (fun _ => Unchanged) (entry querySet run) w := by
  have hstop : ∀ {p : Db Unit} {w' : GenerationWorld},
      GenerationSafe querySet run (fun _ => Unchanged) (fun _ => Unchanged) p w' →
      GenerationSafe querySet run
        (fun goesOn w' => w'.Unchanged ∧ (goesOn = true → w'.HasStatus .generating))
        (fun _ => Unchanged) (p.bind fun _ => .done false) w' :=
    fun h => Safe.seq h fun _ _ hafter => ⟨hafter, fun hgo => by cases hgo⟩
  refine Safe.seq (safe_getJudgmentList hunchanged) ?_
  rintro list w' ⟨rfl, rfl⟩
  cases hlist : w'.committed.list with
  | none => exact ⟨hunchanged, fun h => by cases h⟩
  | some judgmentList =>
    dsimp only
    split
    · exact ⟨hunchanged, fun h => by cases h⟩
    rename_i hstatus
    split
    · exact hstop (safe_failJudgmentList _ hunchanged)
    split
    · exact hstop (safe_failJudgmentList _ hunchanged)
    split
    · rename_i hempty
      refine hstop (safe_completeJudgmentList hunchanged fun q hq => ?_)
      simp [hempty] at hq
    · exact ⟨hunchanged, fun _ => ⟨judgmentList, hlist, not_not.mp hstatus⟩⟩

/-- The worker after its first session. -/
theorem safe_judge (hunchanged : w.Unchanged) (hgenerating : w.HasStatus .generating) :
    GenerationSafe querySet run (fun _ _ => True) (fun _ => Unchanged) (judge querySet run) w := by
  have hend : ∀ {p : Db Unit} {w' : GenerationWorld},
      GenerationSafe querySet run (fun _ => Unchanged) (fun _ => Unchanged) p w' →
      GenerationSafe querySet run (fun _ _ => True) (fun _ => Unchanged) p w' :=
    fun h => h.post fun _ _ _ => trivial
  unfold judge
  split
  · exact hend (safe_failInSession _ hunchanged)
  split
  · exact hend (safe_failInSession _ hunchanged)
  refine Safe.seq (safe_raiseIfAny (R := fun w₁ => w₁ = w) rfl fun _ => hunchanged) ?_
  rintro _ w₁ rfl
  refine Safe.seq (safe_judgeQueries 0 querySet hunchanged hgenerating) ?_
  rintro r w₂ ⟨hunchanged₂, hloop⟩
  cases r with
  | none => trivial
  | some skipped =>
    obtain ⟨-, -, hall⟩ := hloop skipped rfl
    dsimp only
    split
    · rename_i hzero
      refine hend (safe_inSession ?_)
      exact (safe_completeJudgmentList hunchanged₂ (hall hzero)).mono
        (fun _ _ _ => unchanged_closed) fun _ _ _ => unchanged_closed
    · exact hend (safe_failInSession _ hunchanged₂)

/-- `generate_judgments_llm` keeps the contract. -/
theorem safe_generateJudgmentsLlm (hunchanged : w.Unchanged) :
    GenerationSafe querySet run (fun _ _ => True) (fun _ _ => True)
      (generateJudgmentsLlm querySet run) w := by
  refine Safe.handle (Safe.mono (fun _ _ h => h) (E := fun _ => Unchanged) (fun e w' h => ?_)
    (Safe.seq (safe_inSession (Q := fun goesOn w' => w'.Unchanged ∧
      (goesOn = true → w'.HasStatus .generating)) (E := fun _ => Unchanged)
      ((safe_entry hunchanged).mono (fun goesOn w' h => ?_) fun _ _ _ => unchanged_closed)) ?_))
  · refine Safe.handle ((safe_failInSession _ h).mono (fun _ _ _ => trivial) fun _ _ _ => trivial)
  · rw [closed_of_unchanged h.1]
    exact h
  · rintro goesOn w' ⟨hunchanged', hgenerating⟩
    cases goesOn with
    | false => trivial
    | true => exact safe_judge hunchanged' (hgenerating rfl)

/-- The contract is met by the deliveries. -/
theorem generationContract_met (querySet : List String) :
    (generationContract querySet).Met (generationSystem querySet) where
  code _ _ _ _ _ := safe_generateJudgmentsLlm unchanged_closed
  reset _ _ _ hinv := ⟨resumable_of_committed_eq rfl (fun _ h => h) hinv,
    keepsJudgments_of_committed_eq rfl, fun _ ht' => absurd rfl ht'⟩

/-! ## Runs -/

/-- In every run from an idle worker on `w` whose operations meet `cond`, every step
keeps the judgments. -/
def JudgmentsComplete (querySet : List String)
    (cond : Unit → GenerationWorld → GenerationOp → Prop) (w : GenerationWorld) : Prop :=
  ∀ c c', (generationSystem querySet).Run cond (System.idle w) c →
    (generationSystem querySet).Step cond c c' → KeepsJudgments querySet c.world c'.world

/-- While no search fails softly, a list is completed with all its judgments. -/
theorem judgments_complete (querySet : List String) (w : GenerationWorld) (hw : w.Resumable) :
    JudgmentsComplete querySet NoSoftFailure w := by
  intro c c' hrun hstep
  have hmet := generationContract_met querySet
  have hsound := hmet.run (Contract.sound_idle hw) hrun
  obtain ⟨-, _, _, hchange, -⟩ := hmet.step hsound hstep
  exact hchange

/-- The search for one query fails softly. -/
def EngineReply.softFails : EngineReply → Bool
  | msearch reply => reply.items.any fun items => items.any MsearchItem.softFails
  | select _ _ reply => reply.softFails

theorem EngineReply.softFails_iff (reply : EngineReply) (queryId : String) :
    reply.softFails = true ↔ (reply.call queryId).SoftFails := by
  cases reply with
  | msearch reply =>
    cases hitems : reply.items with
    | none => simp [softFails, call, EngineCall.SoftFails, hitems]
    | some items => simp [softFails, call, EngineCall.SoftFails, hitems]
  | select target uniqueKeyRaises reply => simp [softFails, call, EngineCall.SoftFails]

/-- A soft failure is no answer. -/
theorem EngineReply.not_answers {reply : EngineReply} {queryId : String} {docIds : List String}
    (hsoft : reply.softFails = true) : ¬reply.Answers queryId docIds := by
  rintro ⟨hanswered, hitsByQid, hok, -⟩
  have hhard : ¬(reply.call queryId).HardFails := (searchBatch_isOk_iff _).mp ⟨hitsByQid, hok⟩
  exact (answeredAll_iff hhard).mp hanswered ((reply.softFails_iff queryId).mp hsoft)

/-- `NoSoftFailure`, decided. -/
def noSoftFailure (_ : Unit) (_ : GenerationWorld) : GenerationOp → Bool
  | .searchBatch _ reply => !reply.softFails
  | _ => true

theorem noSoftFailure_spec (t : Unit) (w : GenerationWorld) (o : GenerationOp)
    (h : noSoftFailure t w o = true) : NoSoftFailure t w o := by
  cases o with
  | searchBatch queryId reply =>
    intro hsoft
    have hfails := (reply.softFails_iff queryId).mpr hsoft
    simp [noSoftFailure, hfails] at h
  | _ => trivial

/-- A list that has just been created. -/
def newList : GenerationWorld :=
  let tables : ListTables := { list := some { status := .generating }, judgments := Dict.empty }
  { committed := tables, working := tables, answers := [] }

theorem newList_resumable : newList.Resumable := by
  intro _ queryId docId h
  cases h

/-- A run on a query set with one query. -/
def oneQuery (item : MsearchItem) (completions : Completions) : GenerationRun where
  settings := { model := "gpt-4o", estimatedMaxCallCost := some (1 / 20), budgetUsd := 5 }
  query _ := { reply := .msearch (.response 200 "" "" (.ok [item])), completions := completions }

/-- The committed status and the rows. -/
def listState (c : Config Unit GenerationRun GenerationWorld GenerationOp GenerationOp.Res
    GenerationError) : Option JudgmentListStatus × List ((String × String) × Fin 4) :=
  (c.world.committed.list.map JudgmentList.status,
    c.world.committed.judgments.entries.map fun e => (e.1, e.2.rating))

/-- Two documents, of which the model rates both. -/
def twoRated : GenerationRun :=
  oneQuery (.hits [⟨some "shoe-1", some 2⟩, ⟨some "shoe-2", some 1⟩]) fun _ =>
    .ok [some ⟨.text "item-1", some 0, some "another brand"⟩,
      some ⟨.text "item-0", some 3, some "the model asked for"⟩]

/-- A new list whose query has two documents: a delivery dies after its search, the
next one completes the list with both rows. -/
theorem judgments_complete_newList :
    JudgmentsComplete ["running shoes"] NoSoftFailure newList ∧
      ∃ c, (generationSystem ["running shoes"]).Run NoSoftFailure (System.idle newList) c ∧
        listState c = (some .complete,
          [(("running shoes", "shoe-2"), 0), (("running shoes", "shoe-1"), 3)]) := by
  refine ⟨judgments_complete ["running shoes"] newList newList_resumable, ?_⟩
  have hrun : ((((generationSystem ["running shoes"]).guard noSoftFailure).schedule
      (System.idle newList) (.start () twoRated :: List.replicate 5 (.call ()) ++ [.stop ()] ++
        .start () twoRated :: List.replicate 11 (.call ()))).map listState) =
      some (some .complete,
        [(("running shoes", "shoe-2"), 0), (("running shoes", "shoe-1"), 3)]) := by
    decide +kernel
  obtain ⟨c, hc, hstate⟩ := Option.map_eq_some_iff.mp hrun
  exact ⟨c, (generationSystem ["running shoes"]).run_of_guarded noSoftFailure_spec hc, hstate⟩

/-- The engine fails on the query, and the worker takes the empty list of hits for
an answer. -/
def engineFails : GenerationRun :=
  oneQuery (.error (some "search_phase_execution_exception") "all shards failed") fun _ =>
    .error .timeout

/-- The committed status, and which of the engine's answers are soft failures. -/
def answerState (c : Config Unit GenerationRun GenerationWorld GenerationOp GenerationOp.Res
    GenerationError) : Option JudgmentListStatus × List Bool :=
  (c.world.committed.list.map JudgmentList.status,
    c.world.answers.map fun answer => answer.2.softFails)

theorem hasStatus_of_answerState {c : Config Unit GenerationRun GenerationWorld GenerationOp
    GenerationOp.Res GenerationError} {status : JudgmentListStatus} {soft : List Bool}
    (h : answerState c = (some status, soft)) (status' : JudgmentListStatus) :
    c.world.HasStatus status' ↔ status = status' := by
  obtain ⟨list, hlist, hstatus⟩ := Option.map_eq_some_iff.mp (Prod.mk.inj h).1
  simp [HasStatus, hlist, hstatus]

/-- Without the condition it fails: the list becomes complete although the engine has
not answered its query. -/
theorem failed_search_completes_list :
    ¬JudgmentsComplete ["running shoes"] (fun _ _ _ => True) newList := by
  have hrun : ((((generationSystem ["running shoes"]).guard fun _ _ _ => true).schedule
      (System.idle newList) (.start () engineFails :: List.replicate 7 (.call ()))).bind fun c =>
        (((generationSystem ["running shoes"]).guard fun _ _ _ => true).step c (.call ())).map
          fun c' => (answerState c, answerState c')) =
      some ((some .generating, [true]), (some .complete, [true])) := by
    decide +kernel
  obtain ⟨c, hc, hrest⟩ := Option.bind_eq_some_iff.mp hrun
  obtain ⟨c', hc', hstates⟩ := Option.map_eq_some_iff.mp hrest
  obtain ⟨hbefore, hafter⟩ := Prod.mk.inj hstates
  intro hcomplete
  have hkeeps := hcomplete c c'
    ((generationSystem _).run_of_guarded (fun _ _ _ _ => trivial) hc)
    ((generationSystem _).step_of_guarded (fun _ _ _ _ => trivial) hc')
  have hnow : c'.world.HasStatus .complete := (hasStatus_of_answerState hafter _).mpr rfl
  have hnot : ¬c.world.HasStatus .complete := by simp [hasStatus_of_answerState hbefore]
  obtain ⟨reply, docIds, hanswer, hanswers, -⟩ :=
    hkeeps.completes hnow hnot "running shoes" (List.mem_singleton_self _)
  -- every answer of the engine was a failure
  have hsoft : reply.softFails ∈ (answerState c').2 :=
    List.mem_map.mpr ⟨_, hanswer, rfl⟩
  rw [hafter, List.mem_singleton] at hsoft
  exact EngineReply.not_answers hsoft hanswers

end RelyLoop.Judgments.Generation
