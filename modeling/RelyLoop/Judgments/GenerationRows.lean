import RelyLoop.Judgments.Generation

/-!
# The rows of a query

An accepted response rates every document of the hits: the prompt ids are all
different, and the response has each of them. What is inserted is a row for every
document that has none.
-/

namespace RelyLoop.Judgments.Generation

open Python Eval

/-! ## Insertion -/

section Insertion

variable {judgments : Dict (String × String) Judgment}
variable {rows : List ((String × String) × Judgment)} {key : String × String} {v : Judgment}

/-- The insertion of one row. -/
theorem insertAbsent_cons (row : (String × String) × Judgment) :
    insertAbsent judgments (row :: rows) =
      insertAbsent (insertAbsent judgments [row]) rows := rfl

theorem get?_insertAbsent_singleton (row : (String × String) × Judgment) :
    (insertAbsent judgments [row]).get? key =
      if (judgments.get? key).isNone ∧ key = row.1 then some row.2 else judgments.get? key := by
  simp only [insertAbsent]
  by_cases hpresent : (judgments.get? row.1).isSome
  · rw [if_pos hpresent, if_neg]
    rintro ⟨habsent, rfl⟩
    simp [Option.isSome_iff_ne_none.mp hpresent] at habsent
  · rw [if_neg hpresent, Dict.get?_set]
    by_cases hkey : key = row.1
    · have habsent : (judgments.get? key).isNone := by simpa [hkey] using hpresent
      rw [if_pos hkey, if_pos ⟨habsent, hkey⟩]
    · rw [if_neg hkey, if_neg fun h => hkey h.2]

/-- A row that is present is kept. -/
theorem insertAbsent_kept (h : judgments.get? key = some v) :
    (insertAbsent judgments rows).get? key = some v := by
  induction rows generalizing judgments with
  | nil => exact h
  | cons row rows ih =>
    rw [insertAbsent_cons]
    refine ih ?_
    rw [get?_insertAbsent_singleton, if_neg (by simp [h]), h]

/-- The key of every row is present afterwards. -/
theorem insertAbsent_present {row : (String × String) × Judgment} (hrow : row ∈ rows) :
    ((insertAbsent judgments rows).get? row.1).isSome := by
  induction rows generalizing judgments with
  | nil => cases hrow
  | cons first rows ih =>
    rw [insertAbsent_cons]
    rcases List.mem_cons.mp hrow with rfl | hrest
    · have hsome : ∃ v, (insertAbsent judgments [row]).get? row.1 = some v := by
        rw [get?_insertAbsent_singleton]
        cases hget : judgments.get? row.1 with
        | none => exact ⟨row.2, by simp⟩
        | some v => exact ⟨v, by simp⟩
      obtain ⟨v, hv⟩ := hsome
      simp [insertAbsent_kept hv]
    · exact ih hrest

/-- Nothing else is inserted. -/
theorem of_insertAbsent (h : (insertAbsent judgments rows).get? key = some v) :
    judgments.get? key = some v ∨ (key, v) ∈ rows := by
  induction rows generalizing judgments with
  | nil => exact Or.inl h
  | cons row rows ih =>
    rw [insertAbsent_cons] at h
    rcases ih h with hfirst | hrest
    · rw [get?_insertAbsent_singleton] at hfirst
      split at hfirst
      · rename_i hnew
        obtain rfl := Option.some.inj hfirst
        exact Or.inr (by simp [hnew.2])
      · exact Or.inl hfirst
    · exact Or.inr (List.mem_cons_of_mem row hrest)

end Insertion

/-! ## Prompt ids -/

/-- Different numbers have different texts. -/
theorem toString_injective {m n : ℕ} (h : toString m = toString n) : m = n := by
  have hdigits : Nat.toDigits 10 m = Nat.toDigits 10 n := by
    simpa [← String.toList_inj] using h
  have hvalue := congrArg (fun digits => Nat.ofDigitChars 10 digits 0) hdigits
  simpa using hvalue

/-- The hit that a prompt id stands for. -/
theorem mem_promptIds {hits : List ScoredHit} {e : String × String} :
    e ∈ promptIds hits ↔ ∃ (i : ℕ) (hit : ScoredHit), hits[i]? = some hit ∧
      e = ("item-" ++ toString i, hit.docId) := by
  simp only [promptIds, List.mem_map, Prod.exists, List.mem_zipIdx_iff_getElem?]
  constructor
  · rintro ⟨hit, i, hget, rfl⟩
    exact ⟨i, hit, hget, rfl⟩
  · rintro ⟨i, hit, hget, rfl⟩
    exact ⟨hit, i, hget, rfl⟩

/-- A prompt id stands for one document. -/
theorem promptIds_unique {hits : List ScoredHit} {promptId docId docId' : String}
    (h : (promptId, docId) ∈ promptIds hits) (h' : (promptId, docId') ∈ promptIds hits) :
    docId = docId' := by
  obtain ⟨i, hit, hget, heq⟩ := mem_promptIds.mp h
  obtain ⟨j, hit', hget', heq'⟩ := mem_promptIds.mp h'
  obtain ⟨hid, hdoc⟩ := Prod.mk.inj heq
  obtain ⟨hid', hdoc'⟩ := Prod.mk.inj heq'
  have htext : toString i = toString j := by
    simpa [String.append_right_inj] using hid.symm.trans hid'
  obtain rfl := toString_injective htext
  obtain rfl := Option.some.inj (hget.symm.trans hget')
  exact hdoc.trans hdoc'.symm

/-- The dictionary of the prompt ids gives each its document. -/
theorem get?_promptIds {hits : List ScoredHit} {promptId docId : String}
    (h : (promptId, docId) ∈ promptIds hits) :
    (Dict.ofList (promptIds hits)).get? promptId = some docId := by
  have hsome := (Dict.get?_ofList_isSome (promptIds hits) promptId).mpr ⟨_, h, rfl⟩
  obtain ⟨docId', hget⟩ := Option.isSome_iff_exists.mp hsome
  rw [hget, promptIds_unique (Dict.mem_of_get?_ofList hget) h]

/-! ## The rows of a response -/


/-- The row of a rating is the document that its prompt id stands for. -/
theorem judgmentRow_eq_ok {queryId raterRef : String} {promptIdToReal : Dict String String}
    {r : DocRating} {row : (String × String) × Judgment}
    (h : judgmentRow queryId raterRef promptIdToReal r = .ok row) :
    row.1.1 = queryId ∧ promptIdToReal.get? r.docId = some row.1.2 ∧ row.2.source = .llm := by
  unfold judgmentRow at h
  split at h
  · cases h
  · rename_i docId hget
    obtain rfl := Except.ok.inj h
    exact ⟨rfl, hget, rfl⟩

/-- The rows of a query: an LLM row for every document of the hits, and no other. -/
structure RowsOf (queryId : String) (docIds : List String)
    (rows : List ((String × String) × Judgment)) : Prop where
  llm : ∀ row ∈ rows, row.1.1 = queryId ∧ row.1.2 ∈ docIds ∧ row.2.source = .llm
  covers : ∀ docId ∈ docIds, ∃ row ∈ rows, row.1 = (queryId, docId)

/-- An accepted response gives the rows of the query. -/
theorem rateHits_rows {settings : GenerationSettings} {queryId : String} {run : QueryRun}
    {hits : List ScoredHit} {rows : List ((String × String) × Judgment)}
    (h : rateHits settings queryId run hits = .ok (some rows)) :
    RowsOf queryId (hits.map ScoredHit.docId) rows := by
  unfold rateHits at h
  split at h
  · cases h
  dsimp only at h
  split at h
  · split at h <;> cases h
  rename_i ratings _
  split at h
  · cases h
  rename_i haccepted
  have hexpected : (ratings.map DocRating.docId).toFinset =
      ((promptIds hits).map Prod.fst).toFinset := by
    simp only [exactlyExpected, decide_eq_true_eq, not_not] at haccepted
    exact haccepted.1
  cases hrows : ratings.mapM (judgmentRow queryId ("openai:" ++ settings.model)
      (Dict.ofList (promptIds hits))) with
  | error e => simp [hrows, bind, Except.bind] at h
  | ok rows' =>
    obtain rfl : rows' = rows := by simpa [hrows, bind, Except.bind, pure, Except.pure] using h
    obtain ⟨hall, hmade⟩ := mem_of_mapM hrows
    constructor
    · intro row hrow
      obtain ⟨r, -, hr⟩ := hmade row hrow
      obtain ⟨hquery, hget, hllm⟩ := judgmentRow_eq_ok hr
      obtain ⟨i, hit, hi, heq⟩ := mem_promptIds.mp (Dict.mem_of_get?_ofList hget)
      refine ⟨hquery, List.mem_map.mpr ⟨hit, List.mem_of_getElem? hi, ?_⟩, hllm⟩
      exact (Prod.mk.inj heq).2.symm
    · intro docId hdoc
      obtain ⟨hit, hhit, rfl⟩ := List.mem_map.mp hdoc
      obtain ⟨i, hi⟩ := List.mem_iff_getElem?.mp hhit
      have hprompt : ("item-" ++ toString i, hit.docId) ∈ promptIds hits :=
        mem_promptIds.mpr ⟨i, hit, hi, rfl⟩
      -- the response has the prompt id, because it has all of them
      have hreturned : "item-" ++ toString i ∈ ratings.map DocRating.docId := by
        rw [← List.mem_toFinset, hexpected, List.mem_toFinset]
        exact List.mem_map.mpr ⟨_, hprompt, rfl⟩
      obtain ⟨r, hr, hid⟩ := List.mem_map.mp hreturned
      obtain ⟨row, hrow, hr⟩ := hall r hr
      obtain ⟨hquery, hget, -⟩ := judgmentRow_eq_ok hr
      rw [hid, get?_promptIds hprompt] at hget
      exact ⟨row, hrow, Prod.ext hquery (Option.some.inj hget).symm⟩

end RelyLoop.Judgments.Generation
