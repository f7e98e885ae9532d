import RelyLoop.Proposals.MergeSafety

/-!
# The deliveries keep the pointer right

The programs of the webhook receiver and of the reconciler, statement by statement.
A delivery first reads, then marks its proposal, then locks the config repo and moves
the pointer, and commits.
-/

namespace RelyLoop.Proposals

open Concurrency

variable {T : Type} [DecidableEq T] {t : T} {j : Delivery} {w w' : MergeTables T}
variable {env : MergeEnv} {configRepoId proposalId : ℕ} {α ε : Type}

/-- A program that keeps the contract. -/
abbrev MergeSafe (env : MergeEnv) (configRepoId : ℕ) (t : T) (j : Delivery)
    (Q : α → MergeTables T → Prop) (p : MergeDb α) (w : MergeTables T) : Prop :=
  Safe (mergeSystem T env) (mergeContract T env configRepoId) t j Q (fun _ _ => True) p w

variable {Q : α → MergeTables T → Prop}

/-! ## Rules of the statements -/

/-- A statement before the commit. -/
theorem safe_statement (P : MergeTables T → Prop) {o : TablesOp ℕ ConfigRepo ℕ Proposal}
    {next : o.Res → MergeDb α} (hw : P w) (ho : ¬ Tables.IsCommit o)
    (hstable : ∀ w w', MergeRely env configRepoId t w w' → P w → P w')
    (hnext : ∀ w w' a, P w → PointerRight env configRepoId w →
      LocksCurrentPointer configRepoId t w o → w.exec t o = some (w', a) →
      MergeSafe env configRepoId t j Q (next a) w') :
    MergeSafe env configRepoId t j Q (.call o next) w := by
  intro w₁ hrely hinv hcond w₂ a hexec
  have hP := hstable w w₁ hrely hw
  obtain ⟨hrepos, hproposals⟩ := Tables.committed_exec ho hexec
  have hmerges : ∀ p, mergedAt w₂.second.committed p = mergedAt w₁.second.committed p := by
    intro p
    rw [hproposals]
  refine ⟨⟨⟨by rw [hrepos]; exact hinv.found, by rw [hrepos, hproposals]; exact hinv.right⟩,
    fun p m hm => by rw [hmerges p]; exact hm, fun t' hne => ?_⟩, hnext w₁ w₂ a hP hinv hcond hexec⟩
  exact ⟨Tables.exec_frame hexec hne, fun _ p _ => hmerges p⟩

/-- The commit of a transaction that may be committed. -/
theorem safe_commit (hok : CommitOk env configRepoId t w) :
    MergeSafe env configRepoId t j (fun _ w' => w'.Clean t) (Program.perform TablesOp.commit) w := by
  intro w₁ hrely hinv _ w₂ a hexec
  have hok₁ := hok.rely hrely
  have hframe : ∀ t', t' ≠ t → Tables.Frame t' w₁ w₂ := fun t' hne =>
    Tables.exec_frame (o := .commit) hexec hne
  obtain ⟨rfl, -⟩ := Prod.mk.inj (Option.some.inj hexec)
  have hright : PointsToGreatest (env.OnRepo configRepoId)
      (pointerOf (w₁.first.visible t) configRepoId) (mergedAt (w₁.second.visible t)) := by
    rcases hok₁.2 with ⟨-, hright⟩ | ⟨hfree, hsame⟩
    · exact hright
    · have hpointer : pointerOf (w₁.first.visible t) configRepoId =
          pointerOf w₁.first.committed configRepoId := by
        unfold pointerOf
        rw [Store.visible_of_not_held hfree]
      rw [hpointer]
      exact hinv.right.congr hsame
  refine ⟨⟨⟨Store.visible_isSome t hinv.found, hright⟩, hok₁.1, fun t' hne => ?_⟩,
    Tables.clean_commit⟩
  refine ⟨hframe t' hne, fun hlock p hp => ?_⟩
  rcases hok₁.2 with ⟨hmine, -⟩ | ⟨-, hsame⟩
  · exact absurd (Store.held_unique hlock hmine) hne
  · exact hsame p hp

theorem safe_rollback :
    MergeSafe env configRepoId t j (fun _ w' => w'.Clean t)
      (Program.perform TablesOp.rollback) w := by
  refine safe_statement (fun _ => True) trivial (fun h => h) (fun _ _ _ _ => trivial) ?_
  intro w₁ w₂ a _ _ _ hexec
  obtain ⟨rfl, -⟩ := Prod.mk.inj (Option.some.inj hexec)
  exact Tables.clean_rollback

/-- Reading the config repos opens no transaction. -/
theorem safe_readFirst {o : RowOp ℕ ConfigRepo} (hw : w.Clean t)
    (hread : (∃ p before, o = .selectWhere p before) ∨ ∃ k, o = .release k) :
    MergeSafe env configRepoId t j (fun _ w' => w'.Clean t)
      (Program.perform (TablesOp.first o)) w := by
  have hcommit : ¬ Tables.IsCommit (TablesOp.first o : TablesOp ℕ ConfigRepo ℕ Proposal) := by
    rintro rfl
    rcases hread with ⟨_, _, h⟩ | ⟨_, h⟩ <;> cases h
  refine safe_statement (Tables.Clean t) hw hcommit (fun _ _ h hclean => hclean.frame h.1) ?_
  intro w₁ w₂ a hclean _ _ hexec
  obtain ⟨s, hstep, rfl⟩ := Tables.exec_first hexec
  refine ⟨fun k => ?_, hclean.2⟩
  rcases hread with ⟨p, before, rfl⟩ | ⟨k', rfl⟩
  all_goals
    obtain ⟨rfl, -⟩ := Prod.mk.inj (Option.some.inj hstep)
    simpa using hclean.1 k

theorem safe_lookupConfigRepo (hw : w.Clean t) (needle : String × String) :
    MergeSafe env configRepoId t j (fun _ w' => w'.Clean t)
      ((lookupConfigRepoByOwnerRepo env needle).onFirst id) w := by
  have hreleases : ∀ (rows : List (ℕ × ConfigRepo)) (found : Option (ℕ × ConfigRepo))
      (w : MergeTables T), w.Clean t →
      MergeSafe env configRepoId t j (fun _ w' => w'.Clean t)
        (((Program.each (fun row => Transaction.release row.1) rows).bind
          fun _ => Program.done found : Transaction ℕ ConfigRepo MergeError _).onFirst id) w := by
    intro rows found
    induction rows with
    | nil =>
      intro w hclean
      exact hclean
    | cons row rows ih =>
      intro w hclean
      exact Safe.seq (safe_readFirst (o := .release row.1) hclean (Or.inr ⟨_, rfl⟩))
        fun _ w₁ hclean₁ => ih w₁ hclean₁
  refine Safe.seq (safe_readFirst (o := .selectWhere _ _) hw (Or.inl ⟨_, _, rfl⟩))
    fun rows w₁ hclean₁ => ?_
  exact hreleases _ _ w₁ hclean₁

theorem safe_lookupProposal (hw : w.Clean t) (prUrl : String) :
    MergeSafe env configRepoId t j (fun _ w' => w'.Clean t)
      ((lookupProposalByPrUrl prUrl).onSecond MergeError.proposal) w := by
  refine safe_statement (Tables.Clean t) hw (fun h => by cases h)
    (fun _ _ h hclean => hclean.frame h.1) ?_
  intro w₁ w₂ a hclean _ _ hexec
  obtain ⟨s, hstep, rfl⟩ := Tables.exec_second hexec
  obtain ⟨rfl, -⟩ := Prod.mk.inj (Option.some.inj hstep)
  exact ⟨hclean.1, fun k => by simpa using hclean.2 k⟩

/-! ## Marking a proposal -/

/-- The effect of a conditional update on a session without a transaction. -/
theorem marking_of_updateWhere {s s' : Store T ℕ Proposal} {condition : Proposal → Bool}
    {values : Proposal → Proposal} {merged : Option ℕ}
    (hcondition : ∀ v, condition v = true → v.status = .prOpened ∧
      (if (values v).status = .prMerged then (values v).prMergedAt else none) = merged)
    (hclean : s.Clean t)
    (hexec : Store.exec t s (.updateWhere proposalId condition values) = some (s', true)) :
    Marking t proposalId merged s' := by
  obtain ⟨-, -, hfalse⟩ | ⟨v, hv, hp, hfree, rfl, -⟩ := Store.exec_updateWhere hexec
  · cases hfalse
  · obtain ⟨hopened, hmerged⟩ := hcondition v hp
    have hcommitted : s.committed proposalId = some v := by rwa [← hclean.visible proposalId]
    have hwritten : ((s.write t proposalId (values v)).synchronize t proposalId condition
        values).held t proposalId = some (some (values v)) := by simp
    refine ⟨by simp, fun p hp => ?_, by simp [Store.visible_of_written hwritten], ?_, ?_⟩
    · rw [Store.held_synchronize, Store.held_write_of_key_ne hp]
      exact hclean p
    · simp [mergedAt, hcommitted, hopened]
    · simpa [mergedAt, Store.visible_of_written hwritten] using hmerged

/-- A conditional update leaves the session clean, or has marked the proposal. -/
theorem safe_conditionalUpdate_marking {condition : Proposal → Bool} {values : Proposal → Proposal}
    {merged : Option ℕ}
    (hcondition : ∀ v, condition v = true → v.status = .prOpened ∧
      (if (values v).status = .prMerged then (values v).prMergedAt else none) = merged)
    (hw : w.Clean t) :
    MergeSafe env configRepoId t j (fun updated w' => if updated.isSome then
        w'.first.Clean t ∧ Marking t proposalId merged w'.second else w'.Clean t)
      ((conditionalUpdate proposalId condition values).onSecond MergeError.proposal) w := by
  refine safe_statement (Tables.Clean t) hw (fun h => by cases h)
    (fun _ _ h hclean => hclean.frame h.1) ?_
  intro w₁ w₂ matched hclean _ _ hexec
  obtain ⟨s, hstep, rfl⟩ := Tables.exec_second hexec
  cases matched with
  | false =>
    obtain ⟨-, rfl, -⟩ | ⟨v, -, -, -, -, htrue⟩ := Store.exec_updateWhere hstep
    · exact hclean
    · cases htrue
  | true =>
    have hmarking := marking_of_updateWhere hcondition hclean.2 hstep
    refine safe_statement (fun w => w.first.Clean t ∧ Marking t proposalId merged w.second)
      ⟨hclean.1, hmarking⟩ (fun h => by cases h)
      (fun _ _ h hP => ⟨hP.1.frame h.1.1, hP.2.frame h.1.2⟩) ?_
    intro w₃ w₄ updated hP _ _ hread
    obtain ⟨s', hload, rfl⟩ := Tables.exec_second hread
    obtain ⟨rfl, rfl⟩ := Prod.mk.inj (Option.some.inj hload)
    have hfound : (w₃.second.object t proposalId).isSome := by
      simpa [Store.object] using hP.2.seen
    have hkept : Marking t proposalId merged (w₃.second.load t proposalId) := by
      refine ⟨by simpa using hP.2.held, fun p hp => by simpa using hP.2.others p hp,
        by simpa using hP.2.seen, ?_, ?_⟩
      · simpa using hP.2.before
      · simpa using hP.2.after
    have hpost : if (w₃.second.object t proposalId).isSome then
        w₃.first.Clean t ∧ Marking t proposalId merged (w₃.second.load t proposalId)
        else Tables.Clean t ⟨w₃.first, w₃.second.load t proposalId⟩ := by
      rw [if_pos hfound]
      exact ⟨hP.1, hkept⟩
    exact hpost

/-! ## Moving the pointer -/

/-- The transaction has marked a proposal and locked the config repo, whose pointer
is `pointer` until it commits. -/
structure Locked (env : MergeEnv) (configRepoId : ℕ) (t : T) (proposalId : ℕ) (merged : ℕ)
    (pointer : Option ℕ) (w : MergeTables T) : Prop where
  marking : Marking t proposalId (some merged) w.second
  held : w.first.held t configRepoId = some none
  found : (w.first.committed configRepoId).isSome
  points : pointerOf w.first.committed configRepoId = pointer
  right : PointsToGreatest (env.OnRepo configRepoId) pointer (mergedAt w.second.committed)

namespace Locked

variable {merged : ℕ} {pointer : Option ℕ}

theorem rely (h : Locked env configRepoId t proposalId merged pointer w)
    (hrely : MergeRely env configRepoId t w w') :
    Locked env configRepoId t proposalId merged pointer w' := by
  have hheld : w.first.held t configRepoId ≠ none := by simp [h.held]
  have hsame := hrely.1.1.committed configRepoId hheld
  have hpointer := h.points
  unfold pointerOf at hpointer
  refine ⟨h.marking.frame hrely.1.2, (hrely.1.1.held _).trans h.held, ?_, ?_, ?_⟩
  · rw [hsame]
    exact h.found
  · unfold pointerOf
    rwa [hsame]
  · exact h.right.congr (hrely.2 hheld)

/-- What the transaction sees of the proposal that the pointer is at. -/
theorem tracked (h : Locked env configRepoId t proposalId merged pointer w) {q : ℕ}
    (hq : pointer = some q) : ∃ current, mergedAt w.second.committed q = some current ∧
      (w.second.visible t q).bind Proposal.prMergedAt = some current := by
  obtain ⟨-, hmerged⟩ := h.right.target q hq
  obtain ⟨current, hcurrent⟩ := Option.isSome_iff_exists.mp hmerged
  have hne : q ≠ proposalId := by
    rintro rfl
    simp [h.marking.before] at hmerged
  refine ⟨current, hcurrent, ?_⟩
  rw [Store.visible_of_not_held (h.marking.others q hne)]
  obtain ⟨row, hrow, hstatus⟩ := Option.bind_eq_some_iff.mp hcurrent
  obtain ⟨-, hat⟩ := Option.ite_none_right_eq_some.mp hstatus
  rw [hrow, Option.bind_some, hat]

/-- The pointer that is right for what the transaction sees. -/
theorem next (h : Locked env configRepoId t proposalId merged pointer w)
    (hrepo : env.OnRepo configRepoId proposalId) :
    PointsToGreatest (env.OnRepo configRepoId)
      (if (pointer.bind (mergedAt w.second.committed)).all (merged > ·) then some proposalId
        else pointer) (mergedAt (w.second.visible t)) := by
  rw [h.marking.view]
  exact h.right.move hrepo h.marking.before

/-- The other merges are kept. -/
theorem keeps (h : Locked env configRepoId t proposalId merged pointer w) (p m : ℕ)
    (hm : mergedAt w.second.committed p = some m) :
    mergedAt (w.second.visible t) p = some m := by
  rw [h.marking.view]
  by_cases hself : p = proposalId
  · subst hself
    simp [h.marking.before] at hm
  · rwa [Function.update_of_ne hself]

end Locked

/-- The locking read, when its object has the pointer of the row. -/
theorem locked_of_selectForUpdate {merged : ℕ} {row : ConfigRepo} (hclean : w.first.Clean t)
    (hmarking : Marking t proposalId (some merged) w.second)
    (hinv : PointerRight env configRepoId w)
    (hcurrent : LocksCurrentPointer configRepoId t w (.first (.selectForUpdate configRepoId)))
    (hexec : w.exec t (.first (.selectForUpdate configRepoId)) = some (w', some row)) :
    Locked env configRepoId t proposalId merged row.lastMergedProposalId w' := by
  obtain ⟨s, hstep, rfl⟩ := Tables.exec_first hexec
  obtain ⟨-, -, hnone⟩ | ⟨v, hv, hfree, rfl, hrow⟩ := Store.exec_selectForUpdate hstep
  · cases hnone
  · have hcommitted : w.first.committed configRepoId = some v := by
      rwa [← hclean.visible configRepoId]
    have hpointer : row.lastMergedProposalId = v.lastMergedProposalId := by
      cases hid : w.first.identity t configRepoId with
      | none =>
        obtain rfl : row = v := by simpa [hid] using hrow
        rfl
      | some loaded =>
        obtain rfl : row = loaded := by simpa [hid] using hrow
        exact hcurrent rfl row v hid hv
    refine ⟨hmarking, ?_, ?_, ?_, ?_⟩
    · simp [Store.held_acquire, hclean configRepoId]
    · simp [hcommitted]
    · simp [pointerOf, hcommitted, hpointer]
    · have hright := hinv.right
      have hbefore : pointerOf w.first.committed configRepoId = row.lastMergedProposalId := by
        simp [pointerOf, hcommitted, hpointer]
      rwa [hbefore] at hright

variable {merged : ℕ} {pointer : Option ℕ}

/-- The comparison tells whether the pointer has to move. -/
theorem safe_mergedLater {row : ConfigRepo}
    (h : Locked env configRepoId t proposalId merged row.lastMergedProposalId w)
    (hrepo : env.OnRepo configRepoId proposalId) :
    MergeSafe env configRepoId t j (fun later w' =>
        Locked env configRepoId t proposalId merged row.lastMergedProposalId w' ∧
          PointsToGreatest (env.OnRepo configRepoId)
            (if later then some proposalId else row.lastMergedProposalId)
            (mergedAt (w'.second.visible t)))
      (mergedLater row merged) w := by
  unfold mergedLater
  cases hpointer : row.lastMergedProposalId with
  | none =>
    rw [hpointer] at h
    exact ⟨h, by simpa using h.next hrepo⟩
  | some previous =>
    rw [hpointer] at h
    refine safe_statement (Locked env configRepoId t proposalId merged (some previous)) h
      (fun h => h) (fun _ _ hrely hP => hP.rely hrely) ?_
    intro w₁ w₂ tracked hlocked _ _ hexec
    obtain ⟨rfl, rfl⟩ := Prod.mk.inj (Option.some.inj hexec)
    obtain ⟨current, hcurrent, hseen⟩ := hlocked.tracked rfl
    refine ⟨hlocked, ?_⟩
    simpa [hseen, hcurrent] using hlocked.next hrepo

/-- After the flush the transaction may be committed. -/
theorem commitOk_of_update {row : ConfigRepo} {a : Unit}
    (h : Locked env configRepoId t proposalId merged row.lastMergedProposalId w)
    (hright : PointsToGreatest (env.OnRepo configRepoId) (some proposalId)
      (mergedAt (w.second.visible t)))
    (hexec : w.exec t (.first (.update configRepoId fun stored =>
      if row.lastMergedProposalId = some proposalId then stored
      else { stored with lastMergedProposalId := some proposalId })) = some (w', a)) :
    CommitOk env configRepoId t w' := by
  obtain ⟨s, hstep, rfl⟩ := Tables.exec_first hexec
  have hother : row.lastMergedProposalId ≠ some proposalId := by
    intro hsame
    have hmerged := (h.right.target proposalId hsame).2
    simp [h.marking.before] at hmerged
  obtain ⟨v, hv⟩ := Option.isSome_iff_exists.mp h.found
  have hvisible : w.first.visible t configRepoId = some v := by
    simp [Store.visible, h.held, hv]
  obtain ⟨hnone, -⟩ | ⟨v', hv', -, rfl⟩ := Store.exec_update hstep
  · simp [hvisible] at hnone
  · obtain rfl : v = v' := Option.some.inj (hvisible.symm.trans hv')
    refine ⟨h.keeps, Or.inl ⟨by simp, ?_⟩⟩
    have hpointer : pointerOf ((w.first.write t configRepoId
        { v with lastMergedProposalId := some proposalId }).visible t) configRepoId =
        some proposalId := by
      simp [pointerOf, Store.visible_write]
    simpa [hother, hpointer] using hright

/-- Without a flush the transaction may be committed when the pointer stays right. -/
theorem commitOk_of_locked (h : Locked env configRepoId t proposalId merged pointer w)
    (hright : PointsToGreatest (env.OnRepo configRepoId) pointer
      (mergedAt (w.second.visible t))) : CommitOk env configRepoId t w := by
  have hpointer : pointerOf (w.first.visible t) configRepoId = pointer := by
    rw [← h.points]
    simp [pointerOf, Store.visible, h.held]
  refine ⟨h.keeps, Or.inl ⟨by simp [h.held], ?_⟩⟩
  rwa [hpointer]

/-- The pointer of the config repo is moved if need be. -/
theorem safe_updatePointer (hclean : w.first.Clean t)
    (hmarking : Marking t proposalId (some merged) w.second)
    (hrepo : env.OnRepo configRepoId proposalId) :
    MergeSafe env configRepoId t j (fun _ w' => CommitOk env configRepoId t w')
      (updateConfigRepoLastMergedPointer configRepoId proposalId merged) w := by
  refine safe_statement (fun w => w.first.Clean t ∧ Marking t proposalId (some merged) w.second)
    ⟨hclean, hmarking⟩ (fun h => by cases h)
    (fun _ _ h hP => ⟨hP.1.frame h.1.1, hP.2.frame h.1.2⟩) ?_
  intro w₁ w₂ found hP hinv hcurrent hexec
  cases found with
  | none =>
    obtain ⟨s, hstep, rfl⟩ := Tables.exec_first hexec
    obtain ⟨hnone, -⟩ | ⟨v, -, -, -, hsome⟩ := Store.exec_selectForUpdate hstep
    · have hfound := Store.visible_isSome t hinv.found
      simp [hnone] at hfound
    · cases hsome
  | some row =>
    have hlocked := locked_of_selectForUpdate hP.1 hP.2 hinv hcurrent hexec
    change MergeSafe env configRepoId t j _ ((mergedLater row merged).bind _) w₂
    refine Safe.seq (safe_mergedLater hlocked hrepo) fun later w₃ h₃ => ?_
    cases later with
    | false => exact commitOk_of_locked h₃.1 h₃.2
    | true =>
      refine safe_statement (fun w =>
          Locked env configRepoId t proposalId merged row.lastMergedProposalId w ∧
            PointsToGreatest (env.OnRepo configRepoId) (some proposalId)
              (mergedAt (w.second.visible t))) h₃ (fun h => by cases h) ?_ ?_
      · rintro w₄ w₅ hrely ⟨hlocked₄, hright₄⟩
        have hlocked₅ := hlocked₄.rely hrely
        refine ⟨hlocked₅, hright₄.congr fun p hp => ?_⟩
        have hheld : w₄.first.held t configRepoId ≠ none := by simp [hlocked₄.held]
        rw [hlocked₅.marking.view, hlocked₄.marking.view]
        by_cases hself : p = proposalId
        · simp [hself]
        · rw [Function.update_of_ne hself, Function.update_of_ne hself, hrely.2 hheld p hp]
      · intro w₄ w₅ a h₄ _ _ hupdate
        exact commitOk_of_update h₄.1 h₄.2 hupdate

/-- The pointer of another config repo is moved. -/
theorem safe_updateOther {other : ℕ} (hother : other ≠ configRepoId) (hclean : w.first.Clean t)
    (hmarking : Marking t proposalId (some merged) w.second)
    (hrepo : ¬ env.OnRepo configRepoId proposalId) :
    MergeSafe env configRepoId t j (fun _ w' => CommitOk env configRepoId t w')
      (updateConfigRepoLastMergedPointer other proposalId merged) w := by
  let Elsewhere (w : MergeTables T) : Prop :=
    w.first.held t configRepoId = none ∧ Marking t proposalId (some merged) w.second
  have hstable : ∀ w w' : MergeTables T, MergeRely env configRepoId t w w' →
      Elsewhere w → Elsewhere w' := fun _ _ hrely h =>
    ⟨(hrely.1.1.held configRepoId).trans h.1, h.2.frame hrely.1.2⟩
  have hok : ∀ w : MergeTables T, Elsewhere w → CommitOk env configRepoId t w := fun _ h =>
    commitOk_of_marking h.1 h.2 (Or.inr hrepo)
  refine safe_statement Elsewhere ⟨hclean configRepoId, hmarking⟩ (fun h => by cases h) hstable ?_
  intro w₁ w₂ found hP _ _ hexec
  obtain ⟨s, hstep, rfl⟩ := Tables.exec_first hexec
  have hP₂ : Elsewhere ⟨s, w₁.second⟩ := by
    refine ⟨?_, hP.2⟩
    obtain ⟨-, rfl, -⟩ | ⟨v, -, -, rfl, -⟩ := Store.exec_selectForUpdate hstep
    · exact hP.1
    · rw [Store.held_load, Store.held_acquire_of_key_ne hother.symm]
      exact hP.1
  cases found with
  | none => exact hok _ hP₂
  | some row =>
    have hlater : MergeSafe env configRepoId t j (fun _ => Elsewhere) (mergedLater row merged)
        ⟨s, w₁.second⟩ := by
      unfold mergedLater
      cases row.lastMergedProposalId with
      | none => exact hP₂
      | some previous =>
        refine safe_statement Elsewhere hP₂ (fun h => h) hstable ?_
        intro w₃ w₄ tracked h₃ _ _ hread
        obtain ⟨rfl, -⟩ := Prod.mk.inj (Option.some.inj hread)
        exact h₃
    change MergeSafe env configRepoId t j _ ((mergedLater row merged).bind _) _
    refine Safe.seq hlater fun later w₃ h₃ => ?_
    cases later with
    | false => exact hok w₃ h₃
    | true =>
      refine safe_statement Elsewhere h₃ (fun h => by cases h) hstable ?_
      intro w₄ w₅ a h₄ _ _ hupdate
      obtain ⟨s', hflush, rfl⟩ := Tables.exec_first hupdate
      apply hok
      refine ⟨?_, h₄.2⟩
      obtain ⟨-, rfl⟩ | ⟨v, -, -, rfl⟩ := Store.exec_update hflush
      · exact h₄.1
      · rw [Store.held_remember, Store.held_write_of_key_ne hother.symm]
        exact h₄.1

/-! ## The writers -/

theorem safe_applyMerge {condition : Proposal → Bool} {values : Proposal → Proposal}
    (hcondition : ∀ v, condition v = true → v.status = .prOpened ∧
      (if (values v).status = .prMerged then (values v).prMergedAt else none) = some merged)
    (hw : w.Clean t) :
    MergeSafe env configRepoId t j (fun _ w' => CommitOk env configRepoId t w')
      (applyMerge env (conditionalUpdate proposalId condition values) proposalId merged) w := by
  refine Safe.seq (safe_conditionalUpdate_marking hcondition hw) fun updated w₁ h₁ => ?_
  cases updated with
  | none => exact commitOk_of_clean h₁
  | some row =>
    obtain ⟨hclean, hmarking⟩ := h₁
    cases hrepo : env.configRepoOf proposalId with
    | none =>
      simp only [Option.isSome_some, if_true]
      refine commitOk_of_marking (hclean configRepoId) hmarking (Or.inr ?_)
      simp [MergeEnv.OnRepo, hrepo]
    | some other =>
      simp only [Option.isSome_some, if_true]
      by_cases hsame : other = configRepoId
      · subst hsame
        exact Safe.seq (safe_updatePointer hclean hmarking hrepo) fun _ _ h => h
      · refine Safe.seq (safe_updateOther hsame hclean hmarking ?_) fun _ _ h => h
        simpa [MergeEnv.OnRepo, hrepo] using hsame

/-- A conditional update that merges nothing. -/
theorem safe_otherMark {condition : Proposal → Bool} {values : Proposal → Proposal}
    (hcondition : ∀ v, condition v = true → v.status = .prOpened ∧
      (if (values v).status = .prMerged then (values v).prMergedAt else none) = none)
    (hw : w.Clean t) :
    MergeSafe env configRepoId t j (fun _ w' => CommitOk env configRepoId t w')
      (discard ((conditionalUpdate proposalId condition values).onSecond MergeError.proposal)) w := by
  refine Safe.seq (safe_conditionalUpdate_marking hcondition hw) fun updated w₁ h₁ => ?_
  cases updated with
  | none => exact commitOk_of_clean h₁
  | some row => exact commitOk_of_marking (h₁.1 configRepoId) h₁.2 (Or.inl rfl)

theorem safe_markClosed (hw : w.Clean t) :
    MergeSafe env configRepoId t j (fun _ w' => CommitOk env configRepoId t w')
      (discard ((markProposalPrClosed proposalId).onSecond MergeError.proposal)) w := by
  refine safe_otherMark (fun v hv => ?_) hw
  obtain ⟨hopened, -⟩ := of_decide_eq_true hv
  exact ⟨hopened, by simp [hopened]⟩

theorem safe_mutate (mutation : Mutation) (hw : w.Clean t) :
    MergeSafe env configRepoId t j (fun _ w' => CommitOk env configRepoId t w')
      (mutate env proposalId mutation) w := by
  cases mutation with
  | none => exact commitOk_of_clean hw
  | merged prMergedAt =>
    cases prMergedAt with
    | none => exact safe_markClosed hw
    | some prMergedAt =>
      refine safe_applyMerge (fun v hv => ?_) hw
      exact ⟨(of_decide_eq_true hv).1, rfl⟩
  | closed => exact safe_markClosed hw
  | reopened =>
    refine safe_otherMark (fun v hv => ?_) hw
    obtain ⟨hopened, -⟩ := of_decide_eq_true hv
    exact ⟨hopened, by simp [hopened]⟩

theorem safe_githubWebhook (event : WebhookEvent) (hw : w.Clean t) :
    MergeSafe env configRepoId t j (fun _ _ => True) (githubWebhook env event) w := by
  refine Safe.seq (safe_lookupConfigRepo hw event.ownerRepo) fun found w₁ hw₁ => ?_
  cases found with
  | none => trivial
  | some row =>
    dsimp only
    split
    · trivial
    · split
      · trivial
      · refine Safe.seq (safe_lookupProposal hw₁ event.prUrl) fun rows w₂ hw₂ => ?_
        split
        · trivial
        · refine Safe.seq (safe_mutate event.mutation hw₂) fun _ w₃ hok => ?_
          exact (safe_commit hok).post fun _ _ _ => trivial
        · trivial

/-- The block of a session of the reconciler. -/
theorem safe_inOwnSession {body : MergeDb Unit}
    (hbody : MergeSafe env configRepoId t j (fun _ w' => CommitOk env configRepoId t w') body w) :
    MergeSafe env configRepoId t j (fun _ w' => w'.Clean t) (inOwnSession body) w := by
  refine Safe.seq hbody fun _ w₁ hok => ?_
  exact Safe.seq (safe_commit hok) fun _ w₂ _ => safe_rollback

theorem safe_reconcileCandidate (c : Candidate) (hw : w.Clean t) :
    MergeSafe env configRepoId t j (fun _ w' => w'.Clean t) (reconcileCandidate env c) w := by
  unfold reconcileCandidate
  cases c.answer with
  | merged mergedAt =>
    apply safe_inOwnSession
    split
    all_goals
      refine safe_applyMerge (fun v hv => ?_) hw
      exact ⟨(of_decide_eq_true hv).1, rfl⟩
  | closed =>
    apply safe_inOwnSession
    split
    · refine safe_otherMark (fun v hv => ?_) hw
      obtain ⟨hopened, -⟩ := of_decide_eq_true hv
      exact ⟨hopened, by simp [hopened]⟩
    · exact safe_markClosed hw
  | opened => exact hw
  | failed => exact hw
  | rateLimited => exact hw

/-- The deliveries meet their contract. -/
theorem mergeContract_met (T : Type) [DecidableEq T] (env : MergeEnv) (configRepoId : ℕ) :
    (mergeContract T env configRepoId).Met (mergeSystem T env) where
  code t j w _ _ := by
    have hclean : (w.rollback t).Clean t := Tables.clean_rollback
    cases j with
    | webhook event => exact safe_githubWebhook event hclean
    | reconcile candidates =>
      refine (Safe.each (I := Tables.Clean t) (fun c _ w' hw' => ?_) hclean).post
        fun _ _ _ => trivial
      exact safe_reconcileCandidate c hw'
  reset t j w hinv := by
    refine ⟨⟨hinv.found, hinv.right⟩, fun _ _ hm => hm, fun t' hne => ?_⟩
    exact ⟨Tables.exec_frame (o := .rollback) rfl hne, fun _ _ _ => rfl⟩

end RelyLoop.Proposals
