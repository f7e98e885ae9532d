import Mathlib.Data.List.MinMax
import Mathlib.Data.String.Basic
import RelyLoop.Python.Dict

/-!
# Mapping query executions to queries

A UBI query execution carries the text that a user typed. It is resolved to a
query of the query set by comparing that text; the mapping strategy decides
when several queries of the set share it.
-/

namespace RelyLoop.Ubi

open Python (Dict)

/-- A row of `queries`. The table has no column for the time of its creation. -/
structure QueryRow where
  id : String
  queryText : String
  deriving DecidableEq, Repr

/-- The admitted strategies; `unknown` stands for any other stored text. -/
inductive MappingStrategy where
  | reject
  | firstMatch
  | mostRecent
  | unknown
  deriving DecidableEq, Repr

/-- The exception for an attribute that a row does not have. -/
structure AttributeError where
  name : String
  deriving DecidableEq, Repr

/-- What the candidates of one execution resolve to. -/
inductive Resolution where
  | unmatched
  | ambiguous
  | row (row : QueryRow)
  deriving DecidableEq, Repr

/-- The body of the loop of `_apply_mapping_strategy`. -/
def resolveCandidates (strategy : MappingStrategy) :
    List QueryRow → Except AttributeError Resolution
  | [] => .ok .unmatched
  | [row] => .ok (.row row)
  | candidates =>
    match strategy with
    | .reject => .ok .ambiguous
    | .firstMatch =>
      .ok (((candidates.argmin QueryRow.id).map Resolution.row).getD .unmatched)
    | .mostRecent => .error ⟨"created_at"⟩
    | .unknown => .ok .ambiguous

/-- One execution in the loop: the mapping and the number of ambiguous executions so far. -/
def mapExecution (byText : Dict String (List QueryRow)) (strategy : MappingStrategy)
    (acc : Dict String String × ℕ) (entry : String × String) :
    Except AttributeError (Dict String String × ℕ) :=
  match resolveCandidates strategy ((byText.get? entry.2).getD []) with
  | .error e => .error e
  | .ok .unmatched => .ok acc
  | .ok .ambiguous => .ok (acc.1, acc.2 + 1)
  | .ok (.row row) => .ok (acc.1.set entry.1 row.id, acc.2)

/-- `_apply_mapping_strategy`. -/
def applyMappingStrategy (ubiQueryToUserQuery : Dict String String) (querySetRows : List QueryRow)
    (strategy : MappingStrategy) : Except AttributeError (Dict String String × ℕ) :=
  let byText := Dict.group QueryRow.queryText querySetRows
  ubiQueryToUserQuery.entries.foldlM (mapExecution byText strategy) (Dict.empty, 0)

variable {queryMap : Dict String String} {rows : List QueryRow} {strategy : MappingStrategy}
  {mapping : Dict String String × ℕ} {ubiQid text id : String}

/-- The rows with a text, in the order in which they were read. -/
def candidatesOf (rows : List QueryRow) (text : String) : List QueryRow :=
  rows.filter fun row => row.queryText = text

theorem getD_group (rows : List QueryRow) (text : String) :
    ((Dict.group QueryRow.queryText rows).get? text).getD [] = candidatesOf rows text := by
  rw [Dict.get?_group, candidatesOf]
  split
  · simp_all
  · simp_all

/-! ## One execution -/

/-- Only `most_recent` raises, on several candidates. -/
theorem resolveCandidates_eq_error_iff {candidates : List QueryRow} :
    (∃ e, resolveCandidates strategy candidates = .error e) ↔
      strategy = .mostRecent ∧ 2 ≤ candidates.length := by
  match candidates with
  | [] => simp [resolveCandidates]
  | [row] => simp [resolveCandidates]
  | row :: row' :: rest => cases strategy <;> simp [resolveCandidates]

theorem exists_argmin_id {candidates : List QueryRow} (h : candidates ≠ []) :
    ∃ least, candidates.argmin QueryRow.id = some least := by
  cases hleast : candidates.argmin QueryRow.id with
  | none => exact absurd (List.argmin_eq_none.mp hleast) h
  | some least => exact ⟨least, rfl⟩

/-- What is resolved to is a candidate. -/
theorem mem_of_resolveCandidates {candidates : List QueryRow} {row : QueryRow}
    (h : resolveCandidates strategy candidates = .ok (.row row)) : row ∈ candidates := by
  match candidates, h with
  | [row], h =>
    obtain rfl := Resolution.row.inj (Except.ok.inj h)
    exact List.mem_singleton_self row
  | row₁ :: row₂ :: rest, h =>
    cases strategy with
    | firstMatch =>
      obtain ⟨least, hleast⟩ := exists_argmin_id (List.cons_ne_nil row₁ (row₂ :: rest))
      simp only [resolveCandidates, hleast, Option.map_some, Option.getD_some] at h
      obtain rfl := Resolution.row.inj (Except.ok.inj h)
      exact List.argmin_mem hleast
    | reject => cases h
    | mostRecent => cases h
    | unknown => cases h

/-- With several candidates `first_match` takes the smallest id. -/
theorem resolveCandidates_firstMatch {candidates : List QueryRow} (h : 2 ≤ candidates.length) :
    ∃ row ∈ candidates, resolveCandidates .firstMatch candidates = .ok (.row row) ∧
      ∀ other ∈ candidates, row.id ≤ other.id := by
  match candidates, h with
  | row₁ :: row₂ :: rest, _ =>
    obtain ⟨least, hleast⟩ := exists_argmin_id (List.cons_ne_nil row₁ (row₂ :: rest))
    refine ⟨least, List.argmin_mem hleast, ?_, fun other hother => ?_⟩
    · simp [resolveCandidates, hleast]
    · exact List.le_of_mem_argmin hother hleast

/-- Only `reject`, and a strategy that is not known, leave several candidates unresolved. -/
theorem resolveCandidates_eq_ambiguous_iff {candidates : List QueryRow} :
    resolveCandidates strategy candidates = .ok .ambiguous ↔
      2 ≤ candidates.length ∧ (strategy = .reject ∨ strategy = .unknown) := by
  match candidates with
  | [] => simp [resolveCandidates]
  | [row] => simp [resolveCandidates]
  | row₁ :: row₂ :: rest =>
    cases strategy with
    | firstMatch =>
      have hlength : 2 ≤ (row₁ :: row₂ :: rest).length := by simp
      obtain ⟨row, -, hrow, -⟩ := resolveCandidates_firstMatch hlength
      simp [hrow]
    | reject => simp [resolveCandidates]
    | mostRecent => simp [resolveCandidates]
    | unknown => simp [resolveCandidates]

/-- The order of the candidates does not matter. -/
theorem resolveCandidates_perm {candidates candidates' : List QueryRow}
    (h : candidates'.Perm candidates) :
    resolveCandidates strategy candidates' = resolveCandidates strategy candidates ∨
      ∃ row row', resolveCandidates strategy candidates' = .ok (.row row') ∧
        resolveCandidates strategy candidates = .ok (.row row) ∧ row'.id = row.id := by
  match candidates, candidates', h with
  | [], candidates', h =>
    rw [h.eq_nil]
    exact Or.inl rfl
  | [row], candidates', h =>
    rw [List.perm_singleton.mp h]
    exact Or.inl rfl
  | row₁ :: row₂ :: rest, candidates', h =>
    have hlength : 2 ≤ candidates'.length := by
      rw [h.length_eq]
      simp
    cases strategy with
    | firstMatch =>
      have hlength' : 2 ≤ (row₁ :: row₂ :: rest).length := by simp
      obtain ⟨row, hmem, hrow, hleast⟩ := resolveCandidates_firstMatch hlength'
      obtain ⟨row', hmem', hrow', hleast'⟩ := resolveCandidates_firstMatch hlength
      refine Or.inr ⟨row, row', hrow', hrow, le_antisymm ?_ ?_⟩
      · exact hleast' row (h.mem_iff.mpr hmem)
      · exact hleast row' (h.mem_iff.mp hmem')
    | reject =>
      match candidates', hlength with
      | _ :: _ :: _, _ => exact Or.inl rfl
    | mostRecent =>
      match candidates', hlength with
      | _ :: _ :: _, _ => exact Or.inl rfl
    | unknown =>
      match candidates', hlength with
      | _ :: _ :: _, _ => exact Or.inl rfl

/-! ## The loop -/

theorem mapExecution_eq (acc : Dict String String × ℕ) (e : String × String) :
    mapExecution (Dict.group QueryRow.queryText rows) strategy acc e =
      match resolveCandidates strategy (candidatesOf rows e.2) with
      | .error err => .error err
      | .ok .unmatched => .ok acc
      | .ok .ambiguous => .ok (acc.1, acc.2 + 1)
      | .ok (.row row) => .ok (acc.1.set e.1 row.id, acc.2) := by
  rw [mapExecution, getD_group]

theorem mapExecution_perm {rows' : List QueryRow} (h : rows'.Perm rows)
    (acc : Dict String String × ℕ) (e : String × String) :
    mapExecution (Dict.group QueryRow.queryText rows') strategy acc e =
      mapExecution (Dict.group QueryRow.queryText rows) strategy acc e := by
  have hcandidates : (candidatesOf rows' e.2).Perm (candidatesOf rows e.2) := h.filter _
  rw [mapExecution_eq, mapExecution_eq]
  rcases resolveCandidates_perm hcandidates with hsame | ⟨row, row', hrow', hrow, hid⟩
  · rw [hsame]
  · simp only [hrow', hrow, hid]

/-- The mapping does not depend on the order of the rows. -/
theorem applyMappingStrategy_perm {rows' : List QueryRow} (h : rows'.Perm rows) :
    applyMappingStrategy queryMap rows' strategy = applyMappingStrategy queryMap rows strategy := by
  have hstep : mapExecution (Dict.group QueryRow.queryText rows') strategy =
      mapExecution (Dict.group QueryRow.queryText rows) strategy := by
    funext acc e
    exact mapExecution_perm h acc e
  simp only [applyMappingStrategy, hstep]

/-- The loop raises exactly when one of its executions does. -/
theorem foldlM_eq_error_iff (entries : List (String × String)) (acc : Dict String String × ℕ) :
    (∃ err, entries.foldlM (mapExecution (Dict.group QueryRow.queryText rows) strategy) acc =
      .error err) ↔
      ∃ e ∈ entries, ∃ err, resolveCandidates strategy (candidatesOf rows e.2) = .error err := by
  induction entries generalizing acc with
  | nil => simp [pure, Except.pure]
  | cons e entries ih =>
    rw [List.foldlM_cons, mapExecution_eq, List.exists_mem_cons_iff]
    cases hresolve : resolveCandidates strategy (candidatesOf rows e.2) with
    | error err => simp [bind, Except.bind]
    | ok resolution => cases resolution <;> simp [bind, Except.bind, ih]

/-- What the loop has mapped after some executions: each of them by what its candidates resolve
to. -/
structure MappedTo (rows : List QueryRow) (strategy : MappingStrategy)
    (entries : List (String × String)) (mapping : Dict String String × ℕ) : Prop where
  mapped : ∀ ubiQid id, mapping.1.get? ubiQid = some id ↔ ∃ text row, (ubiQid, text) ∈ entries ∧
    resolveCandidates strategy (candidatesOf rows text) = .ok (.row row) ∧ row.id = id
  skipped : mapping.2 = entries.countP fun e =>
    (resolveCandidates strategy (candidatesOf rows e.2)).toOption == some .ambiguous

/-- An execution that resolves to no row maps nothing. -/
theorem MappedTo.mapped_skip {entries : List (String × String)} {e : String × String}
    (h : MappedTo rows strategy entries mapping)
    (hskip : ∀ row, resolveCandidates strategy (candidatesOf rows e.2) ≠ .ok (.row row))
    (ubiQid id : String) : mapping.1.get? ubiQid = some id ↔
      ∃ text row, (ubiQid, text) ∈ entries ++ [e] ∧
        resolveCandidates strategy (candidatesOf rows text) = .ok (.row row) ∧ row.id = id := by
  rw [h.mapped]
  constructor
  · rintro ⟨text, row, hmem, hrow, hid⟩
    exact ⟨text, row, List.mem_append_left _ hmem, hrow, hid⟩
  · rintro ⟨text, row, hmem, hrow, hid⟩
    rcases List.mem_append.mp hmem with hmem | hmem
    · exact ⟨text, row, hmem, hrow, hid⟩
    · obtain rfl := List.mem_singleton.mp hmem
      exact absurd hrow (hskip row)

/-- What the loop maps. -/
theorem mappedTo_of_foldlM {entries : List (String × String)}
    (hnodup : (entries.map Prod.fst).Nodup)
    (h : entries.foldlM (mapExecution (Dict.group QueryRow.queryText rows) strategy)
      (Dict.empty, 0) = .ok mapping) : MappedTo rows strategy entries mapping := by
  induction entries using List.reverseRecOn generalizing mapping with
  | nil =>
    obtain rfl := Except.ok.inj h
    exact ⟨by simp, rfl⟩
  | append_singleton entries e ih =>
    rw [List.map_append, List.nodup_append] at hnodup
    rw [List.foldlM_append] at h
    cases hacc : entries.foldlM (mapExecution (Dict.group QueryRow.queryText rows) strategy)
        (Dict.empty, 0) with
    | error err => simp [hacc, bind, Except.bind] at h
    | ok acc =>
      have hmapped := ih hnodup.1 hacc
      simp only [hacc, bind, Except.bind, List.foldlM_cons, List.foldlM_nil, mapExecution_eq] at h
      cases hresolve : resolveCandidates strategy (candidatesOf rows e.2) with
      | error err => simp [hresolve] at h
      | ok resolution =>
        cases resolution with
        | unmatched =>
          obtain rfl : acc = mapping := by simpa [hresolve, pure, Except.pure] using h
          refine ⟨hmapped.mapped_skip fun row => by simp [hresolve], ?_⟩
          simp [List.countP_append, hmapped.skipped, hresolve, Except.toOption]
        | ambiguous =>
          obtain rfl : (acc.1, acc.2 + 1) = mapping := by
            simpa [hresolve, pure, Except.pure] using h
          refine ⟨hmapped.mapped_skip fun row => by simp [hresolve], ?_⟩
          simp [List.countP_append, hmapped.skipped, hresolve, Except.toOption]
        | row row =>
          obtain rfl : (acc.1.set e.1 row.id, acc.2) = mapping := by
            simpa [hresolve, pure, Except.pure] using h
          constructor
          · intro ubiQid id
            rw [Dict.get?_set]
            by_cases hkey : ubiQid = e.1
            · subst hkey
              rw [if_pos rfl]
              constructor
              · intro hid
                exact ⟨e.2, row, by simp, hresolve, Option.some.inj hid⟩
              · rintro ⟨text, row', hmem, hrow', rfl⟩
                rcases List.mem_append.mp hmem with hmem | hmem
                · have hkeys : e.1 ∈ entries.map Prod.fst := List.mem_map.mpr ⟨(e.1, text), hmem, rfl⟩
                  exact absurd rfl (hnodup.2.2 e.1 hkeys e.1 (by simp))
                · obtain rfl : text = e.2 := congrArg Prod.snd (List.mem_singleton.mp hmem)
                  rw [hresolve] at hrow'
                  cases hrow'
                  rfl
            · rw [if_neg hkey, hmapped.mapped]
              have hother : ∀ text, (ubiQid, text) ∈ entries ++ [e] ↔ (ubiQid, text) ∈ entries := by
                intro text
                rw [List.mem_append, List.mem_singleton, or_iff_left]
                exact fun heq => hkey (congrArg Prod.fst heq)
              simp only [hother]
          · simp [List.countP_append, hmapped.skipped, hresolve, Except.toOption]

/-- Only executions of the query map are mapped. -/
theorem mem_of_applyMappingStrategy
    (h : applyMappingStrategy queryMap rows strategy = .ok mapping)
    (hid : mapping.1.get? ubiQid = some id) : ubiQid ∈ queryMap.entries.map Prod.fst := by
  have hmapped : MappedTo rows strategy queryMap.entries mapping :=
    mappedTo_of_foldlM queryMap.nodup h
  obtain ⟨text, -, hmem, -, -⟩ := (hmapped.mapped ubiQid id).mp hid
  exact List.mem_map.mpr ⟨(ubiQid, text), hmem, rfl⟩

/-! ## What the strategies promise -/

/-- What an execution with several candidates is mapped to, where rows have a creation time. -/
def Picks (createdAt : QueryRow → ℕ) (candidates : List QueryRow) (picked : Option String) :
    MappingStrategy → Prop
  | .reject | .unknown => picked = none
  | .firstMatch => ∃ row ∈ candidates, picked = some row.id ∧
      ∀ other ∈ candidates, row.id ≤ other.id
  | .mostRecent => ∃ row ∈ candidates, picked = some row.id ∧
      ∀ other ∈ candidates, createdAt other ≤ createdAt row

/-- Executions with several candidates are counted only when they are skipped. -/
def Counts (rows : List QueryRow) (entries : List (String × String)) (count : ℕ) :
    MappingStrategy → Prop
  | .reject | .unknown => count = entries.countP fun e => 2 ≤ (candidatesOf rows e.2).length
  | .firstMatch | .mostRecent => count = 0

/-- A mapping that is as the strategy promises. -/
structure Promised (createdAt : QueryRow → ℕ) (queryMap : Dict String String)
    (rows : List QueryRow) (strategy : MappingStrategy) (mapping : Dict String String × ℕ) :
    Prop where
  sameText : ∀ ubiQid id, mapping.1.get? ubiQid = some id →
    ∃ row ∈ rows, row.id = id ∧ queryMap.get? ubiQid = some row.queryText
  picks : ∀ ubiQid text, queryMap.get? ubiQid = some text →
    2 ≤ (candidatesOf rows text).length →
      Picks createdAt (candidatesOf rows text) (mapping.1.get? ubiQid) strategy
  counts : Counts rows queryMap.entries mapping.2 strategy
  anyOrder : ∀ rows', rows'.Perm rows →
    applyMappingStrategy queryMap rows' strategy = .ok mapping

variable {createdAt : QueryRow → ℕ}

/-- Several candidates are picked from as the strategy says. -/
theorem picks_of_mappedTo (h : MappedTo rows strategy queryMap.entries mapping)
    (hget : queryMap.get? ubiQid = some text) (hlength : 2 ≤ (candidatesOf rows text).length)
    (hrecent : strategy ≠ .mostRecent) :
    Picks createdAt (candidatesOf rows text) (mapping.1.get? ubiQid) strategy := by
  have hmem := (queryMap.get?_eq_some_iff ubiQid text).mp hget
  have hskip : resolveCandidates strategy (candidatesOf rows text) = .ok .ambiguous →
      mapping.1.get? ubiQid = none := by
    intro hambiguous
    rw [Option.eq_none_iff_forall_ne_some]
    intro id hid
    obtain ⟨text', row, hmem', hrow, -⟩ := (h.mapped ubiQid id).mp hid
    have hget' := (queryMap.get?_eq_some_iff ubiQid text').mpr hmem'
    obtain rfl := Option.some.inj (hget.symm.trans hget')
    rw [hambiguous] at hrow
    cases hrow
  cases strategy with
  | reject => exact hskip (resolveCandidates_eq_ambiguous_iff.mpr ⟨hlength, Or.inl rfl⟩)
  | unknown => exact hskip (resolveCandidates_eq_ambiguous_iff.mpr ⟨hlength, Or.inr rfl⟩)
  | mostRecent => exact absurd rfl hrecent
  | firstMatch =>
    obtain ⟨row, hrow, hresolve, hleast⟩ := resolveCandidates_firstMatch hlength
    exact ⟨row, hrow, (h.mapped ubiQid row.id).mpr ⟨text, row, hmem, hresolve, rfl⟩, hleast⟩

theorem counts_of_mappedTo (h : MappedTo rows strategy queryMap.entries mapping) :
    Counts rows queryMap.entries mapping.2 strategy := by
  have hambiguous : ∀ e : String × String,
      ((resolveCandidates strategy (candidatesOf rows e.2)).toOption == some .ambiguous) =
        decide (2 ≤ (candidatesOf rows e.2).length ∧
          (strategy = .reject ∨ strategy = .unknown)) := by
    intro e
    rw [Bool.eq_iff_iff, beq_iff_eq, decide_eq_true_iff, ← resolveCandidates_eq_ambiguous_iff]
    cases resolveCandidates strategy (candidatesOf rows e.2) <;> simp [Except.toOption]
  have hskipped := h.skipped
  simp only [hambiguous] at hskipped
  cases strategy <;> simpa [Counts] using hskipped

/-- A mapping that is returned is as promised. -/
theorem promised_of_ok
    (hcond : strategy = .mostRecent → ∀ ubiQid text, queryMap.get? ubiQid = some text →
      (candidatesOf rows text).length ≤ 1)
    (h : applyMappingStrategy queryMap rows strategy = .ok mapping) :
    Promised createdAt queryMap rows strategy mapping := by
  have hmapped : MappedTo rows strategy queryMap.entries mapping :=
    mappedTo_of_foldlM queryMap.nodup h
  refine ⟨?_, ?_, counts_of_mappedTo hmapped, fun rows' hperm => ?_⟩
  · intro ubiQid id hid
    obtain ⟨text, row, hmem, hrow, hrowId⟩ := (hmapped.mapped ubiQid id).mp hid
    obtain ⟨hrows, htext⟩ := List.mem_filter.mp (mem_of_resolveCandidates hrow)
    obtain rfl : row.queryText = text := of_decide_eq_true htext
    exact ⟨row, hrows, hrowId, (queryMap.get?_eq_some_iff ubiQid row.queryText).mpr hmem⟩
  · intro ubiQid text hget hlength
    refine picks_of_mappedTo hmapped hget hlength fun hrecent => ?_
    have hle := hcond hrecent ubiQid text hget
    omega
  · rw [applyMappingStrategy_perm hperm, h]

/-- The rows are mapped as the strategies promise, and nothing is raised, exactly when the
strategy is another one than `most_recent` or no text of an execution is shared by several rows. -/
theorem promised_iff (createdAt : QueryRow → ℕ) (queryMap : Dict String String)
    (rows : List QueryRow) (strategy : MappingStrategy) :
    (∃ mapping, applyMappingStrategy queryMap rows strategy = .ok mapping ∧
      Promised createdAt queryMap rows strategy mapping) ↔
    (strategy = .mostRecent → ∀ ubiQid text, queryMap.get? ubiQid = some text →
      (candidatesOf rows text).length ≤ 1) := by
  constructor
  · rintro ⟨mapping, hok, -⟩ rfl ubiQid text hget
    by_contra hlength
    obtain ⟨err, herr⟩ := resolveCandidates_eq_error_iff.mpr
      ⟨rfl, show 2 ≤ (candidatesOf rows text).length by omega⟩
    have hmem := (queryMap.get?_eq_some_iff ubiQid text).mp hget
    obtain ⟨err', herr'⟩ := (foldlM_eq_error_iff queryMap.entries (Dict.empty, 0)).mpr
      ⟨(ubiQid, text), hmem, err, herr⟩
    rw [applyMappingStrategy, herr'] at hok
    cases hok
  · intro hcond
    cases happly : applyMappingStrategy queryMap rows strategy with
    | error err =>
      obtain ⟨e, he, hraises⟩ :=
        (foldlM_eq_error_iff queryMap.entries (Dict.empty, 0)).mp ⟨err, happly⟩
      obtain ⟨hrecent, hlength⟩ := resolveCandidates_eq_error_iff.mp hraises
      have hle := hcond hrecent e.1 e.2 ((queryMap.get?_eq_some_iff e.1 e.2).mpr he)
      omega
    | ok mapping => exact ⟨mapping, rfl, promised_of_ok hcond happly⟩

/-- Two queries of one text. -/
def repeatedRows : List QueryRow :=
  [{ id := "q1", queryText := "red shoes" }, { id := "q2", queryText := "red shoes" }]

/-- `most_recent` raises on them: the rows have no creation time. -/
theorem most_recent_raises :
    applyMappingStrategy (Dict.ofList [("u1", "red shoes")]) repeatedRows .mostRecent =
        .error ⟨"created_at"⟩ ∧
      ∀ createdAt : QueryRow → ℕ, ¬ ∃ mapping,
        applyMappingStrategy (Dict.ofList [("u1", "red shoes")]) repeatedRows .mostRecent =
          .ok mapping ∧
        Promised createdAt (Dict.ofList [("u1", "red shoes")]) repeatedRows .mostRecent
          mapping := by
  have hraises : applyMappingStrategy (Dict.ofList [("u1", "red shoes")]) repeatedRows
      .mostRecent = .error ⟨"created_at"⟩ := rfl
  refine ⟨hraises, fun createdAt => ?_⟩
  rintro ⟨mapping, hok, -⟩
  rw [hraises] at hok
  cases hok

end RelyLoop.Ubi
