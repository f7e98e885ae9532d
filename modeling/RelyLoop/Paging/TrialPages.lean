import RelyLoop.Paging.Endpoints

/-!
# Pages of trials

The trial list has its own condition for the cursor of each sort key. Those of `ended_at`
leave the trials without an end out of the rows after a trial that has ended.
-/

namespace RelyLoop.Paging

open Python

variable {F : Type}

/-- What the trial list reads of a row. -/
structure TrialRow (F : Type) where
  id : String
  studyId : String
  optunaTrialNumber : ℤ
  primaryMetric : Option F
  endedAt : Option DateTime
  deriving DecidableEq

def TrialRow.hasEnded (row : TrialRow F) : Bool := row.endedAt.isSome

/-- `TrialSortKey`. -/
inductive TrialSortKey where
  | primaryMetricDesc
  | primaryMetricAsc
  | endedAtDesc
  | endedAtAsc
  | optunaTrialNumberAsc
  deriving DecidableEq

/-- `sort_key.startswith("ended_at")`. -/
def TrialSortKey.isEndedAt : TrialSortKey → Bool
  | .endedAtDesc => true
  | .endedAtAsc => true
  | _ => false

section Queries

variable (db : Database F)

/-- The times at which trials ended. -/
def endedAtOrder : SqlOrder DateTime := (SqlOrder.ofLinearOrder : SqlOrder ℕ).comap DateTime.stamp

/-- The order of a sort key. -/
def trialOrder (sortKey : TrialSortKey) : SqlOrder (TrialRow F) :=
  let byId := db.text.comap TrialRow.id
  match sortKey with
  | .primaryMetricDesc =>
    .orderBy [(db.float.reverse.withNulls true).comap TrialRow.primaryMetric, byId.reverse]
  | .primaryMetricAsc =>
    .orderBy [(db.float.withNulls true).comap TrialRow.primaryMetric, byId]
  | .endedAtDesc =>
    .orderBy [(endedAtOrder.reverse.withNulls true).comap TrialRow.endedAt, byId.reverse]
  | .endedAtAsc => .orderBy [(endedAtOrder.withNulls true).comap TrialRow.endedAt, byId]
  | .optunaTrialNumberAsc =>
    .orderBy [(SqlOrder.ofLinearOrder : SqlOrder ℤ).comap TrialRow.optunaTrialNumber, byId]

/-- The parameter for a column of floats. -/
def bindFloat : CursorValue F → Option (Option F)
  | .null => some none
  | .float x => some (some x)
  | _ => none

/-- The parameter for a column of times. -/
def bindDatetime : CursorValue F → Option (Option DateTime)
  | .null => some none
  | .datetime d => some (some d)
  | _ => none

/-- The parameter for a column of integers. -/
def bindInteger : CursorValue F → Option (Option ℤ)
  | .null => some none
  | .integer i => some (some i)
  | _ => none

/-- The condition of a cursor, for a sort key. -/
def trialKeyset (sortKey : TrialSortKey) (cval : CursorValue F) (cid : String) :
    Option (TrialRow F → Truth) :=
  match sortKey with
  | .primaryMetricDesc =>
    (bindFloat cval).map fun cval row =>
      if cval.isSome then
        (db.float.less row.primaryMetric cval).or (Truth.or (some row.primaryMetric.isNone)
          ((db.float.equals row.primaryMetric cval).and (some (db.text.lt row.id cid))))
      else Truth.and (some row.primaryMetric.isNone) (some (db.text.lt row.id cid))
  | .primaryMetricAsc =>
    (bindFloat cval).map fun cval row =>
      if cval.isSome then
        (db.float.less cval row.primaryMetric).or (Truth.or (some row.primaryMetric.isNone)
          ((db.float.equals row.primaryMetric cval).and (some (db.text.lt cid row.id))))
      else Truth.and (some row.primaryMetric.isNone) (some (db.text.lt cid row.id))
  | .endedAtDesc =>
    (bindDatetime cval).map fun cval row =>
      Truth.or (if cval.isSome then endedAtOrder.less row.endedAt cval else some false)
        ((endedAtOrder.equals row.endedAt cval).and (some (db.text.lt row.id cid)))
  | .endedAtAsc =>
    (bindDatetime cval).map fun cval row =>
      Truth.or (if cval.isSome then endedAtOrder.less cval row.endedAt else some false)
        ((endedAtOrder.equals row.endedAt cval).and (some (db.text.lt cid row.id)))
  | .optunaTrialNumberAsc =>
    (bindInteger cval).map fun cval row =>
      let order : SqlOrder ℤ := SqlOrder.ofLinearOrder
      Truth.or (order.less cval (some row.optunaTrialNumber))
        ((order.equals (some row.optunaTrialNumber) cval).and (some (db.text.lt cid row.id)))

/-- The filters of `list_trials_paginated` and of `count_trials`. -/
def trialsWhere (studyId : String) (since : Option DateTime) (row : TrialRow F) : Truth :=
  allOf [some (row.studyId == studyId),
    match since with
    | none => some true
    | some since => row.endedAt.map fun endedAt => decide (since.stamp ≤ endedAt.stamp)]

/-- `list_trials_paginated`. -/
def listTrialsPaginated (studyId : String) (cursor : Option (CursorValue F × String)) (limit : ℕ)
    (sortKey : TrialSortKey) (since : Option DateTime) (table : List (TrialRow F)) :
    Option (List (TrialRow F)) :=
  match cursor with
  | none => some (select (trialsWhere studyId since) (trialOrder db sortKey) (min limit 200) table)
  | some (cval, cid) =>
    (trialKeyset db sortKey cval cid).map fun keyset =>
      select (fun row => (trialsWhere studyId since row).and (keyset row))
        (trialOrder db sortKey) (min limit 200) table

/-- The value half of the cursor of a trial. -/
def trialCursorValue (sortKey : TrialSortKey) (last : TrialRow F) : CursorValue F :=
  match sortKey with
  | .primaryMetricDesc => last.primaryMetric.elim .null .float
  | .primaryMetricAsc => last.primaryMetric.elim .null .float
  | .endedAtDesc => last.endedAt.elim .null .datetime
  | .endedAtAsc => last.endedAt.elim .null .datetime
  | .optunaTrialNumberAsc => .integer last.optunaTrialNumber

variable [PyFloat F]

/-- `_decode_trial_cursor`. -/
def decodeTrialCursor (sortKey : TrialSortKey) (raw : List Char) :
    Option (CursorValue F × String) :=
  decodeValueCursor raw sortKey.isEndedAt

/-- `_encode_trial_cursor`, of the last trial of a page. -/
def encodeTrialCursor (sortKey : TrialSortKey) (last : TrialRow F) : List Char :=
  encodeValueCursor (trialCursorValue sortKey last) last.id

/-- `GET /studies/{study_id}/trials`, of a study that exists. -/
def listStudyTrials (studyId : String) (limit : ℕ) (since : Option DateTime)
    (sortKey : TrialSortKey) (table : List (TrialRow F)) (cursor : Option (List Char)) :
    Option (Page (TrialRow F) (List Char)) :=
  match decodeIfPresent (decodeTrialCursor (F := F) sortKey) cursor with
  | none => none
  | some decoded =>
    (listTrialsPaginated db studyId decoded limit sortKey since table).map
      (pageOfLimit (encodeTrialCursor sortKey) limit
        (table.countP fun row => (trialsWhere studyId since row).holds))

end Queries

/-! ## The rows after a cursor -/

section Keyset

variable (db : Database F) (sortKey : TrialSortKey)

/-- A trial without an end, listed after one that has ended. -/
def dropsAfter (row other : TrialRow F) : Bool :=
  sortKey.isEndedAt && row.hasEnded && !other.hasEnded

/-- The condition of a cursor keeps the trials that come after the cursor's trial, but for
those that it drops. -/
theorem trialKeyset_trialCursorValue (row : TrialRow F) :
    ∃ keyset, trialKeyset db sortKey (trialCursorValue sortKey row) row.id = some keyset ∧
      ∀ other, (keyset other).holds =
        ((trialOrder db sortKey).lt row other && !dropsAfter sortKey row other) := by
  obtain ⟨id, studyId, number, metric, endedAt⟩ := row
  cases sortKey with
  | primaryMetricDesc =>
    cases metric with
    | none =>
      refine ⟨_, rfl, fun other => ?_⟩
      cases hother : other.primaryMetric <;>
        simp [trialOrder, dropsAfter, TrialSortKey.isEndedAt, TrialRow.hasEnded, hother]
    | some v =>
      refine ⟨_, rfl, fun other => ?_⟩
      cases hother : other.primaryMetric with
      | none => simp [trialOrder, dropsAfter, TrialSortKey.isEndedAt, TrialRow.hasEnded, hother]
      | some w =>
        cases hbefore : db.float.lt w v <;>
          simp [trialOrder, dropsAfter, TrialSortKey.isEndedAt, TrialRow.hasEnded, SqlOrder.eq, hother, hbefore]
  | primaryMetricAsc =>
    cases metric with
    | none =>
      refine ⟨_, rfl, fun other => ?_⟩
      cases hother : other.primaryMetric <;>
        simp [trialOrder, dropsAfter, TrialSortKey.isEndedAt, TrialRow.hasEnded, hother]
    | some v =>
      refine ⟨_, rfl, fun other => ?_⟩
      cases hother : other.primaryMetric with
      | none => simp [trialOrder, dropsAfter, TrialSortKey.isEndedAt, TrialRow.hasEnded, hother]
      | some w =>
        cases hbefore : db.float.lt v w <;>
          simp [trialOrder, dropsAfter, TrialSortKey.isEndedAt, TrialRow.hasEnded, SqlOrder.eq, hother, hbefore]
  | endedAtDesc =>
    cases endedAt with
    | none =>
      refine ⟨_, rfl, fun other => ?_⟩
      cases hother : other.endedAt <;>
        simp [trialOrder, dropsAfter, TrialSortKey.isEndedAt, TrialRow.hasEnded, hother]
    | some v =>
      refine ⟨_, rfl, fun other => ?_⟩
      cases hother : other.endedAt with
      | none => simp [trialOrder, dropsAfter, TrialSortKey.isEndedAt, TrialRow.hasEnded, hother]
      | some w =>
        cases hbefore : endedAtOrder.lt w v <;>
          simp [trialOrder, dropsAfter, TrialSortKey.isEndedAt, TrialRow.hasEnded, SqlOrder.eq, hother, hbefore]
  | endedAtAsc =>
    cases endedAt with
    | none =>
      refine ⟨_, rfl, fun other => ?_⟩
      cases hother : other.endedAt <;>
        simp [trialOrder, dropsAfter, TrialSortKey.isEndedAt, TrialRow.hasEnded, hother]
    | some v =>
      refine ⟨_, rfl, fun other => ?_⟩
      cases hother : other.endedAt with
      | none => simp [trialOrder, dropsAfter, TrialSortKey.isEndedAt, TrialRow.hasEnded, hother]
      | some w =>
        cases hbefore : endedAtOrder.lt v w <;>
          simp [trialOrder, dropsAfter, TrialSortKey.isEndedAt, TrialRow.hasEnded, SqlOrder.eq, hother, hbefore]
  | optunaTrialNumberAsc =>
    refine ⟨_, rfl, fun other => ?_⟩
    cases hbefore : (SqlOrder.ofLinearOrder : SqlOrder ℤ).lt number other.optunaTrialNumber <;>
      simp [trialOrder, dropsAfter, TrialSortKey.isEndedAt, TrialRow.hasEnded, SqlOrder.eq, hbefore]

/-- Trials that the order does not tell apart have the same id. -/
theorem id_eq_of_trialOrder {a b : TrialRow F} (hab : (trialOrder db sortKey).lt a b = false)
    (hba : (trialOrder db sortKey).lt b a = false) : a.id = b.id := by
  cases sortKey with
  | primaryMetricDesc =>
    obtain ⟨hid, hid'⟩ := SqlOrder.eq_of_orderBy_pair hab hba
    exact db.text_total _ _ hid' hid
  | primaryMetricAsc =>
    obtain ⟨hid, hid'⟩ := SqlOrder.eq_of_orderBy_pair hab hba
    exact db.text_total _ _ hid hid'
  | endedAtDesc =>
    obtain ⟨hid, hid'⟩ := SqlOrder.eq_of_orderBy_pair hab hba
    exact db.text_total _ _ hid' hid
  | endedAtAsc =>
    obtain ⟨hid, hid'⟩ := SqlOrder.eq_of_orderBy_pair hab hba
    exact db.text_total _ _ hid hid'
  | optunaTrialNumberAsc =>
    obtain ⟨hid, hid'⟩ := SqlOrder.eq_of_orderBy_pair hab hba
    exact db.text_total _ _ hid hid'

/-- A trial that comes before one that has ended has ended. -/
theorem hasEnded_of_lt (hkey : sortKey.isEndedAt = true) {a b : TrialRow F}
    (hlt : (trialOrder db sortKey).lt a b = true) (hb : b.hasEnded = true) :
    a.hasEnded = true := by
  obtain ⟨v, hv⟩ := Option.isSome_iff_exists.mp hb
  cases ha : a.endedAt with
  | some w => simp [TrialRow.hasEnded, ha]
  | none =>
    cases sortKey with
    | endedAtDesc => simp [trialOrder, ha, hv] at hlt
    | endedAtAsc => simp [trialOrder, ha, hv] at hlt
    | primaryMetricDesc => cases hkey
    | primaryMetricAsc => cases hkey
    | optunaTrialNumberAsc => cases hkey

end Keyset

/-! ## Runs -/

section Runs

variable (db : Database F) (sortKey : TrialSortKey) (studyId : String) {limit : ℕ}
  {table : List (TrialRow F)}

/-- The trials of the study. -/
def trialsOf (studyId : String) (table : List (TrialRow F)) : List (TrialRow F) :=
  table.filter fun row => row.studyId == studyId

/-- The trials of the study, in the order of the sort key. -/
def trialListing (table : List (TrialRow F)) : List (TrialRow F) :=
  (trialOrder db sortKey).sort (table.filter fun row => (trialsWhere studyId none row).holds)

theorem trialListing_perm :
    (trialListing db sortKey studyId table).Perm (trialsOf studyId table) := by
  have hfilter : (fun row : TrialRow F => (trialsWhere studyId none row).holds) =
      fun row => row.studyId == studyId := by
    funext row
    simp [trialsWhere, allOf]
  rw [trialsOf, ← hfilter]
  exact SqlOrder.sort_perm _ _

theorem trialOrder_separates (hids : (table.map TrialRow.id).Nodup) :
    (trialOrder db sortKey).Separates table := by
  intro a ha b hb hab hba
  exact List.inj_on_of_nodup_map hids ha hb (id_eq_of_trialOrder db sortKey hab hba)

theorem pairwise_trialListing (hids : (table.map TrialRow.id).Nodup) :
    (trialListing db sortKey studyId table).Pairwise fun a b =>
      (trialOrder db sortKey).lt a b = true := by
  refine SqlOrder.pairwise_lt_sort _ ?_ (hids.of_map.filter _)
  intro a ha b hb
  exact trialOrder_separates db sortKey hids a (List.mem_of_mem_filter ha) b
    (List.mem_of_mem_filter hb)

variable [PyFloat F]

omit [PyFloat F] in
/-- The cursor of a sort key holds a value of its column. -/
theorem exists_cursorValue (row : TrialRow F) :
    ∃ (kind : ColumnKind) (value : Option (kind.Value F)),
      trialCursorValue sortKey row = kind.cursorValue value ∧
        sortKey.isEndedAt = decide (kind = .timestamp) := by
  obtain ⟨id, studyId, number, metric, endedAt⟩ := row
  cases sortKey with
  | primaryMetricDesc => exact ⟨.float, metric, by cases metric <;> rfl, rfl⟩
  | primaryMetricAsc => exact ⟨.float, metric, by cases metric <;> rfl, rfl⟩
  | endedAtDesc => exact ⟨.timestamp, endedAt, by cases endedAt <;> rfl, rfl⟩
  | endedAtAsc => exact ⟨.timestamp, endedAt, by cases endedAt <;> rfl, rfl⟩
  | optunaTrialNumberAsc => exact ⟨.integer, some number, rfl, rfl⟩

/-- The endpoint reads the cursors that it writes. -/
theorem decodeTrialCursor_encodeTrialCursor (row : TrialRow F) :
    decodeIfPresent (decodeTrialCursor (F := F) sortKey) (some (encodeTrialCursor sortKey row)) =
      some (some (trialCursorValue sortKey row, row.id)) := by
  obtain ⟨kind, value, hvalue, hkey⟩ := exists_cursorValue sortKey row
  rw [encodeTrialCursor, hvalue, decodeIfPresent_of_ne_nil (encodeValueCursor_ne_nil _ _ _),
    decodeTrialCursor, hkey, decodeValueCursor_encodeValueCursor]
  rfl

/-- The response to a cursor holds the trials behind its trial that the condition keeps. -/
theorem listStudyTrials_next (hids : (table.map TrialRow.id).Nodup) (hmax : limit ≤ maxPageLimit)
    (row : TrialRow F) :
    listStudyTrials db studyId limit none sortKey table (some (encodeTrialCursor sortKey row)) =
      some (pageOfLimit (encodeTrialCursor sortKey) limit
        (table.countP fun row => (trialsWhere studyId none row).holds)
        (((trialListing db sortKey studyId table).filter fun other =>
          (trialOrder db sortKey).lt row other && !dropsAfter sortKey row other).take limit)) := by
  obtain ⟨keyset, hkeyset, hholds⟩ := trialKeyset_trialCursorValue db sortKey row
  have hsort := SqlOrder.sort_filter_and _ (trialOrder_separates db sortKey hids)
    (trialsWhere studyId none) keyset
  simp only [hholds] at hsort
  rw [listStudyTrials, decodeTrialCursor_encodeTrialCursor]
  simp only [listTrialsPaginated, hkeyset, Option.map_some, select, hsort,
    Nat.min_eq_left (show limit ≤ 200 from hmax), trialListing]

/-- The client visits every trial of the study once, in order. -/
def VisitsEveryTrial (limit : ℕ) (table : List (TrialRow F)) : Prop :=
  ∃ pages, Follows (listStudyTrials db studyId limit none sortKey table) none pages ∧
    (rowsOf pages).Perm (trialsOf studyId table) ∧
    (rowsOf pages).Pairwise fun a b => (trialOrder db sortKey).lt a b = true

theorem listStudyTrials_first (hmax : limit ≤ maxPageLimit) :
    listStudyTrials db studyId limit none sortKey table none =
      some (pageOfLimit (encodeTrialCursor sortKey) limit
        (table.countP fun row => (trialsWhere studyId none row).holds)
        ((trialListing db sortKey studyId table).take limit)) := by
  rw [listStudyTrials]
  simp only [decodeIfPresent, listTrialsPaginated, Option.map_some, select,
    Nat.min_eq_left (show limit ≤ 200 from hmax), trialListing]

/-- The client visits every trial if no trial is dropped behind the last one of a page. -/
theorem visitsEveryTrial_of_keeps (hids : (table.map TrialRow.id).Nodup) (hlimit : 1 ≤ limit)
    (hmax : limit ≤ maxPageLimit)
    (hkeeps : ∀ earlier row rows,
      trialListing db sortKey studyId table = earlier ++ row :: rows →
      limit ≤ earlier.length + 1 → ∀ other ∈ rows, dropsAfter sortKey row other = false) :
    VisitsEveryTrial db sortKey studyId limit table := by
  have hsorted := pairwise_trialListing db sortKey studyId hids
  have hshows : ∀ total earlier rows, trialListing db sortKey studyId table = earlier ++ rows →
      (pageOfLimit (encodeTrialCursor sortKey) limit total (rows.take limit)).Shows
        (fun cursor rest => ∃ earlier row, trialListing db sortKey studyId table =
          earlier ++ row :: rest ∧ limit ≤ earlier.length + 1 ∧
            cursor = encodeTrialCursor sortKey row) rows := by
    intro total earlier rows hlisting
    refine pageOfLimit_shows hlimit fun first last rest hrows hlength => ?_
    refine ⟨earlier ++ first, last, by rw [hlisting, hrows, List.append_assoc], ?_, rfl⟩
    rw [List.length_append]
    omega
  obtain ⟨pages, hfollows, hrows⟩ : ∃ pages,
      Follows (listStudyTrials db studyId limit none sortKey table) none pages ∧
        rowsOf pages = trialListing db sortKey studyId table := by
    refine exists_follows ?_ (listStudyTrials_first db sortKey studyId hmax) (hshows _ [] _ rfl)
    rintro cursor rows ⟨earlier, row, hlisting, hlength, rfl⟩
    refine ⟨_, listStudyTrials_next db sortKey studyId hids hmax row, ?_⟩
    have hafter : ((trialListing db sortKey studyId table).filter fun other =>
        (trialOrder db sortKey).lt row other && !dropsAfter sortKey row other) = rows := by
      have hkept : (rows.filter fun other => !dropsAfter sortKey row other) = rows := by
        refine List.filter_eq_self.mpr fun other hother => ?_
        rw [hkeeps earlier row rows hlisting hlength other hother]
        rfl
      have hsplit : ((trialListing db sortKey studyId table).filter fun other =>
          (trialOrder db sortKey).lt row other && !dropsAfter sortKey row other) =
          ((trialListing db sortKey studyId table).filter ((trialOrder db sortKey).lt row)).filter
            fun other => !dropsAfter sortKey row other := by
        rw [List.filter_filter]
        exact List.filter_congr fun other _ => Bool.and_comm _ _
      rw [hlisting] at hsorted hsplit ⊢
      rw [hsplit, SqlOrder.filter_after _ hsorted, hkept]
    rw [hafter]
    exact hshows _ (earlier ++ [row]) rows (by rw [hlisting, List.append_cons])
  refine ⟨pages, hfollows, ?_, ?_⟩
  · rw [hrows]
    exact trialListing_perm db sortKey studyId
  · rw [hrows]
    exact hsorted

omit [PyFloat F] in
/-- Up to a trial that has ended, there are no more trials than have ended. -/
theorem length_le_of_endedAt (hids : (table.map TrialRow.id).Nodup)
    (hkey : sortKey.isEndedAt = true) {earlier rows : List (TrialRow F)} {row : TrialRow F}
    (hlisting : trialListing db sortKey studyId table = earlier ++ row :: rows)
    (hrow : row.hasEnded = true) :
    earlier.length + 1 ≤ (trialsOf studyId table).countP TrialRow.hasEnded := by
  have hsorted := pairwise_trialListing db sortKey studyId hids
  rw [hlisting] at hsorted
  obtain ⟨-, -, hbefore⟩ := List.pairwise_append.mp hsorted
  have hearlier : earlier.countP TrialRow.hasEnded = earlier.length :=
    List.countP_eq_length.mpr fun other hother =>
      hasEnded_of_lt db sortKey hkey (hbefore other hother row List.mem_cons_self) hrow
  rw [← (trialListing_perm db sortKey studyId).countP_eq, hlisting, List.countP_append, hearlier,
    List.countP_cons_of_pos hrow]
  omega

omit [PyFloat F] in
/-- The trials that have ended come first. -/
theorem trialListing_eq_append (hids : (table.map TrialRow.id).Nodup)
    (hkey : sortKey.isEndedAt = true) :
    trialListing db sortKey studyId table =
      (trialListing db sortKey studyId table).filter TrialRow.hasEnded ++
        (trialListing db sortKey studyId table).filter fun row => !row.hasEnded := by
  have hsorted := pairwise_trialListing db sortKey studyId hids
  generalize trialListing db sortKey studyId table = listing at hsorted ⊢
  induction listing with
  | nil => rfl
  | cons row rows ih =>
    obtain ⟨hrow, hrows⟩ := List.pairwise_cons.mp hsorted
    cases hended : row.hasEnded with
    | true =>
      rw [List.filter_cons_of_pos hended, List.filter_cons_of_neg (by simp [hended]),
        List.cons_append, ← ih hrows]
    | false =>
      have hnone : rows.filter TrialRow.hasEnded = [] := by
        refine List.filter_eq_nil_iff.mpr fun other hother hsome => ?_
        rw [hasEnded_of_lt db sortKey hkey (hrow other hother) hsome] at hended
        cases hended
      rw [List.filter_cons_of_neg (by simp [hended]), hnone, List.nil_append,
        List.filter_cons_of_pos (by simp [hended])]
      conv_lhs => rw [ih hrows, hnone, List.nil_append]

/-- If a full page of trials has ended, a client that follows the cursors of an `ended_at` key
receives the trials that have ended, and no others. -/
theorem exists_follows_ended (hids : (table.map TrialRow.id).Nodup) (hlimit : 1 ≤ limit)
    (hmax : limit ≤ maxPageLimit) (hkey : sortKey.isEndedAt = true)
    (hfull : limit ≤ (trialsOf studyId table).countP TrialRow.hasEnded) :
    ∃ pages, Follows (listStudyTrials db studyId limit none sortKey table) none pages ∧
      rowsOf pages =
        (trialListing db sortKey studyId table).filter TrialRow.hasEnded := by
  have hsorted := pairwise_trialListing db sortKey studyId hids
  have hlength : limit ≤
      ((trialListing db sortKey studyId table).filter TrialRow.hasEnded).length := by
    rwa [← List.countP_eq_length_filter, (trialListing_perm db sortKey studyId).countP_eq]
  have hshows : ∀ earlier rows,
      (trialListing db sortKey studyId table).filter TrialRow.hasEnded = earlier ++ rows →
      (pageOfLimit (encodeTrialCursor sortKey) limit
        (table.countP fun row => (trialsWhere studyId none row).holds) (rows.take limit)).Shows
        (StandsBefore ((trialListing db sortKey studyId table).filter TrialRow.hasEnded)
          (encodeTrialCursor sortKey)) rows :=
    fun _ _ h => pageOfLimit_shows hlimit (standsBefore_of_append h)
  refine exists_follows_listing hshows ?_ ?_
  · rw [listStudyTrials_first db sortKey studyId hmax]
    conv_lhs => rw [trialListing_eq_append db sortKey studyId hids hkey,
      List.take_append_of_le_length hlength]
  · intro earlier row rows hended
    rw [listStudyTrials_next db sortKey studyId hids hmax row]
    have hrow : row.hasEnded = true := by
      have hmem : row ∈ (trialListing db sortKey studyId table).filter
          TrialRow.hasEnded := by
        rw [hended]
        exact List.mem_append_right _ List.mem_cons_self
      exact (List.mem_filter.mp hmem).2
    have hafter : ((trialListing db sortKey studyId table).filter fun other =>
        (trialOrder db sortKey).lt row other && !dropsAfter sortKey row other) = rows := by
      have hsorted' := hsorted.filter TrialRow.hasEnded
      rw [hended] at hsorted'
      have hrest := SqlOrder.filter_after _ hsorted'
      rw [← hended, List.filter_filter] at hrest
      conv_rhs => rw [← hrest]
      refine List.filter_congr fun other _ => ?_
      rw [dropsAfter, hkey, hrow, Bool.not_and, Bool.not_not]
      rfl
    rw [hafter]

/-- Once a full page of trials has ended, a trial without an end is not visited. -/
theorem hasEnded_of_visitsEveryTrial (hids : (table.map TrialRow.id).Nodup) (hlimit : 1 ≤ limit)
    (hmax : limit ≤ maxPageLimit) (hkey : sortKey.isEndedAt = true)
    (hfull : limit ≤ (trialsOf studyId table).countP TrialRow.hasEnded)
    (hvisits : VisitsEveryTrial db sortKey studyId limit table) :
    ∀ row ∈ trialsOf studyId table, row.hasEnded = true := by
  intro row hrow
  obtain ⟨pages, hfollows, hrows, -⟩ := hvisits
  obtain ⟨pages', hfollows', hended⟩ := exists_follows_ended db sortKey studyId hids hlimit
    hmax hkey hfull
  obtain rfl := hfollows.unique hfollows'
  rw [hended] at hrows
  exact (List.mem_filter.mp (hrows.mem_iff.mpr hrow)).2

/-- The client visits every trial, except that an `ended_at` key hides the trials without an
end once a full page of trials has ended. -/
theorem visitsEveryTrial_iff (hids : (table.map TrialRow.id).Nodup) (hlimit : 1 ≤ limit)
    (hmax : limit ≤ maxPageLimit) :
    VisitsEveryTrial db sortKey studyId limit table ↔
      sortKey.isEndedAt = false ∨
        (∀ row ∈ trialsOf studyId table, row.hasEnded = true) ∨
          (trialsOf studyId table).countP TrialRow.hasEnded < limit := by
  have hperm : (trialListing db sortKey studyId table).Perm (trialsOf studyId table) :=
    trialListing_perm db sortKey studyId
  constructor
  · intro hvisits
    cases hkey : sortKey.isEndedAt with
    | false => exact .inl rfl
    | true =>
      refine .inr (or_iff_not_imp_right.mpr fun hfull => ?_)
      exact hasEnded_of_visitsEveryTrial db sortKey studyId hids hlimit hmax hkey
        (Nat.not_lt.mp hfull) hvisits
  · intro hcases
    refine visitsEveryTrial_of_keeps db sortKey studyId hids hlimit hmax ?_
    intro earlier row rows hlisting hlength other hother
    rcases hcases with hkey | hall | hfew
    · rw [dropsAfter, hkey]
      rfl
    · have hmem : other ∈ trialListing db sortKey studyId table := by
        rw [hlisting]
        exact List.mem_append_right _ (List.mem_cons_of_mem _ hother)
      have hsome := hall other (hperm.mem_iff.mp hmem)
      rw [dropsAfter, hsome, Bool.not_true, Bool.and_false]
    · cases hkey : sortKey.isEndedAt with
      | false =>
        rw [dropsAfter, hkey]
        rfl
      | true =>
        cases hrow : row.hasEnded with
        | false =>
          rw [dropsAfter, hrow, Bool.and_false]
          rfl
        | true =>
          have hle := length_le_of_endedAt db sortKey studyId hids hkey hlisting hrow
          omega

end Runs

/-- A trial that has ended, and one that was reconstructed without an end. -/
def reconstructedTrials : List (TrialRow SampleFloat) :=
  [⟨"a", "s", 0, some .half, some (january 2 (by decide))⟩, ⟨"b", "s", 1, some .quarter, none⟩]

theorem reconstructed_trial_hidden :
    ¬VisitsEveryTrial sampleDatabase .endedAtDesc "s" 1 reconstructedTrials := by
  intro hvisits
  have hended := hasEnded_of_visitsEveryTrial sampleDatabase .endedAtDesc "s" (by decide)
    (by decide) (by decide) rfl (by decide) hvisits
  exact absurd (hended ⟨"b", "s", 1, some .quarter, none⟩ (by decide)) (by decide)

theorem visitsEveryTrial_iff_reconstructedTrials :
    VisitsEveryTrial sampleDatabase .endedAtDesc "s" 1 reconstructedTrials ↔
      TrialSortKey.endedAtDesc.isEndedAt = false ∨
        (∀ row ∈ trialsOf "s" reconstructedTrials, row.hasEnded = true) ∨
          (trialsOf "s" reconstructedTrials).countP TrialRow.hasEnded < 1 :=
  visitsEveryTrial_iff sampleDatabase .endedAtDesc "s" (by decide) (by decide) (by decide)

end RelyLoop.Paging
