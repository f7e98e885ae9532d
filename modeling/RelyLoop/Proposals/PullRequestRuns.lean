import RelyLoop.Proposals.PullRequests

/-!
# The diff of an opened pull request

A proposal that is committed as opened should keep the diff that its pull request was built from,
and a digest should leave a proposal alone that is not pending any more. Both hold in the runs in
which the last write of each worker meets the proposal as the worker has loaded it: a deletion its
status, and the record of a pull request its diff.
-/

namespace RelyLoop.Proposals.PullRequests

open Concurrency Store

variable {T : Type} [DecidableEq T]

/-- The pull request of a proposal was built from its diff. -/
def BuiltFrom (github : Github) (row : Proposal) : Prop :=
  ∃ pull ∈ github.pulls, row.prUrl = some pull.url ∧ pull.configDiff = row.configDiff

/-- A proposal that is not pending is not deleted, and keeps what a digest writes. -/
def KeepsSettled (r r' : Option Proposal) : Prop :=
  ∀ row, r = some row → row.status ≠ .pending → ∃ row', r' = some row' ∧ row'.status ≠ .pending ∧
    row'.configDiff = row.configDiff ∧ row'.metricDelta = row.metricDelta

/-- A session that deletes a proposal meets the status that it has loaded, and one that records a
pull request meets the diff that it has loaded. -/
def WritesSeeLoaded (t : T) (w : World T) : BesideOp ℕ (Option Proposal) GithubOp → Prop
  | .row (.updateWhere k p f) => ∀ loaded row, w.table.identity t k = some (some loaded) →
      w.table.visible t k = some (some row) → p (some row) = true →
      (f (some row) = none → row.status = loaded.status) ∧
        ∀ row', f (some row) = some row' → row'.status = .prOpened →
          row.configDiff = loaded.configDiff
  | _ => True

/-- In every run from idle workers on `w` whose operations meet `cond`, a committed opened proposal
has the diff that its pull request was built from, it keeps that diff, and no step deletes a
committed proposal that is not pending, or changes what a digest writes to it. -/
structure DiffsAreBuilt (T : Type) [DecidableEq T]
    (cond : T → World T → BesideOp ℕ (Option Proposal) GithubOp → Prop) (w : World T) : Prop where
  built : ∀ c, (pullRequestSystem T).Run cond (System.idle w) c →
    ∀ k row, c.world.table.committed k = some (some row) → row.status = .prOpened →
      BuiltFrom c.world.outside row
  stays : ∀ c c', (pullRequestSystem T).Run cond (System.idle w) c →
    (pullRequestSystem T).Run cond c c' →
    ∀ k row, c.world.table.committed k = some (some row) → row.status = .prOpened →
      ∃ row', c'.world.table.committed k = some (some row') ∧ row'.configDiff = row.configDiff
  settled : ∀ c c', (pullRequestSystem T).Run cond (System.idle w) c →
    (pullRequestSystem T).Step cond c c' →
    ∀ k row, c.world.table.committed k = some (some row) → row.status ≠ .pending →
      ∃ row', c'.world.table.committed k = some (some row') ∧ row'.status ≠ .pending ∧
        row'.configDiff = row.configDiff ∧ row'.metricDelta = row.metricDelta

/-! ## The contract -/

theorem KeepsSettled.refl (r : Option Proposal) : KeepsSettled r r :=
  fun row hrow hsettled => ⟨row, hrow, hsettled, rfl, rfl⟩

theorem KeepsSettled.trans {r₁ r₂ r₃ : Option Proposal} (h : KeepsSettled r₁ r₂)
    (h' : KeepsSettled r₂ r₃) : KeepsSettled r₁ r₃ := by
  intro row hrow hsettled
  obtain ⟨row₂, hrow₂, hsettled₂, hdiff₂, hdelta₂⟩ := h row hrow hsettled
  obtain ⟨row₃, hrow₃, hsettled₃, hdiff₃, hdelta₃⟩ := h' row₂ hrow₂ hsettled₂
  exact ⟨row₃, hrow₃, hsettled₃, hdiff₃.trans hdiff₂, hdelta₃.trans hdelta₂⟩

theorem BuiltFrom.mono {github github' : Github} {row : Proposal} (h : BuiltFrom github row)
    (hgrows : ∀ pull ∈ github.pulls, pull ∈ github'.pulls) : BuiltFrom github' row := by
  obtain ⟨pull, hpull, hbuilt⟩ := h
  exact ⟨pull, hgrows pull hpull, hbuilt⟩

/-- Settled proposals are left alone, and every version that is opened was built. -/
def builtDiffs (T : Type) [DecidableEq T] :
    Discipline T Job ℕ (Option Proposal) Github GithubOp where
  Rel := KeepsSettled
  Good _ := True
  touches _ _ := True
  Link s github := ∀ k row, some row ∈ s.versions k → row.status = .prOpened → BuiltFrom github row
  Grows github github' := ∀ pull ∈ github.pulls, pull ∈ github'.pulls
  cond := WritesSeeLoaded
  rel_refl := KeepsSettled.refl
  rel_trans _ _ _ h h' := h.trans h'
  grows_refl _ _ h := h
  grows_trans _ _ _ h h' pull hpull := h' pull (h pull hpull)
  link_rollback _ _ _ h k row hrow := h k row (mem_versions_of_rollback hrow)

/-- `p` is safe for the contract. -/
abbrev DiffSafe {α : Type} (t : T) (j : Job) (Q : α → World T → Prop)
    (E : ProposalError → World T → Prop) (p : Worker α) (w : World T) : Prop :=
  Safe (besideSystem Job.code (fun _ _ => true) execGithub) (builtDiffs T).contract t j Q E p w

/-- What the transaction of `t` has written replaces pending proposals. -/
def ReplacesPending (t : T) (w : World T) : Prop :=
  ∀ k v row, w.table.held t k = some (some v) → w.table.committed k = some (some row) →
    row.status = .pending

variable {t : T} {j : Job} {w w' : World T} {k : ℕ} {α : Type}
variable {Q : α → World T → Prop} {E : ProposalError → World T → Prop}

theorem ReplacesPending.stable (h : ReplacesPending t w)
    (hrely : (builtDiffs T).contract.rely t w w') : ReplacesPending t w' := by
  intro k v row hheld hcommitted
  rw [hrely.1.held k] at hheld
  rw [hrely.1.committed k (by simp [hheld])] at hcommitted
  exact h k v row hheld hcommitted

theorem ReplacesPending.of_clean (h : w.table.Clean t) : ReplacesPending t w :=
  fun k v row hheld => by simp [h k] at hheld

/-- A row that is seen as pending replaces a pending proposal. -/
theorem ReplacesPending.pending (h : ReplacesPending t w) {row₀ : Proposal} {v : Option Proposal}
    (hv : w.table.visible t k = some v) (hpending : ∀ row, v = some row → row.status = .pending)
    (hcommitted : w.table.committed k = some (some row₀)) : row₀.status = .pending := by
  unfold Store.visible at hv
  split at hv
  · rename_i v' hheld
    exact h k v' row₀ hheld hcommitted
  · exact hpending row₀ (Option.some.inj (hv.symm.trans hcommitted))

/-- A statement keeps the link when the opened version that it writes was built. -/
theorem link_exec {o : RowOp ℕ (Option Proposal)} {s' : Store T ℕ (Option Proposal)} {a : o.Res}
    (hinv : (builtDiffs T).contract.inv w) (hexec : Store.exec t w.table o = some (s', a))
    (hnew : ∀ k row, w.table.Writes t o k (some row) → row.status = .prOpened →
      BuiltFrom w.outside row) : (builtDiffs T).Link s' w.outside := by
  intro k row hrow hopened
  rcases mem_versions_exec hexec hrow with hold | hwrite
  · exact hinv.2 k row hold hopened
  · exact hnew k row hwrite hopened

/-! ## Statements -/

/-- Reading and forgetting write no version. -/
theorem safe_read {P : World T → Prop} {o : RowOp ℕ (Option Proposal)}
    {next : o.Res → Worker α} (hw : P w)
    (hread : (∃ k, o = .select k) ∨ (∃ p before, o = .selectWhere p before) ∨ ∃ k, o = .release k)
    (hstable : ∀ w w', (builtDiffs T).contract.rely t w w' → P w → P w')
    (hnext : ∀ w s' a, P w → s'.held t = w.table.held t → s'.committed = w.table.committed →
      Store.exec t w.table o = some (s', a) → DiffSafe t j Q E (next a) ⟨s', w.outside⟩) :
    DiffSafe t j Q E (.call (.row o) next) w := by
  refine Discipline.safe_row P hw hstable (fun w _ _ _ => ?_) (fun w s' a _ hinv _ hexec => ?_)
    (fun _ _ _ _ _ _ _ _ => trivial) fun w s' a hP _ _ hexec => hnext w s' a hP ?_ ?_ hexec
  · obtain ⟨k, rfl⟩ | ⟨p, before, rfl⟩ | ⟨k, rfl⟩ := hread <;> trivial
  · refine link_exec hinv hexec fun k row hwrite => ?_
    obtain ⟨k, rfl⟩ | ⟨p, before, rfl⟩ | ⟨k, rfl⟩ := hread <;> exact hwrite.elim
  all_goals
    obtain ⟨k, rfl⟩ | ⟨p, before, rfl⟩ | ⟨k, rfl⟩ := hread
    all_goals
      obtain ⟨rfl, -⟩ := Prod.mk.inj (Option.some.inj hexec)
      funext k'
      simp

/-- `COMMIT` and `ROLLBACK` end the transaction. -/
theorem safe_finish {o : RowOp ℕ (Option Proposal)} {next : o.Res → Worker α}
    (hfinish : o = .commit ∨ o = .rollback)
    (hnext : ∀ w a, w.table.Clean t → DiffSafe t j Q E (next a) w) :
    DiffSafe t j Q E (.call (.row o) next) w := by
  refine Discipline.safe_row (fun _ => True) trivial (fun _ _ _ h => h) (fun w _ _ _ => ?_)
    (fun w s' a _ hinv _ hexec => ?_) (fun _ _ _ _ _ _ _ _ => trivial)
    fun w s' a _ _ _ hexec => hnext ⟨s', w.outside⟩ a ?_
  · obtain rfl | rfl := hfinish <;> trivial
  · refine link_exec hinv hexec fun k row hwrite => ?_
    obtain rfl | rfl := hfinish <;> exact hwrite.elim
  · obtain rfl | rfl := hfinish
    all_goals
      obtain ⟨rfl, -⟩ := Prod.mk.inj (Option.some.inj hexec)
      intro k'
      simp

/-- A conditional write that meets a pending proposal only. -/
theorem safe_updateWhere {P : World T → Prop} {p : Option Proposal → Bool}
    {f : Option Proposal → Option Proposal} {next : Bool → Worker α} (hw : P w)
    (hstable : ∀ w w', (builtDiffs T).contract.rely t w w' → P w → P w')
    (hreplaces : ∀ w, P w → ReplacesPending t w) (hnone : p none = false)
    (hpending : ∀ w row, P w → WritesSeeLoaded t w (.row (.updateWhere k p f)) →
      w.table.visible t k = some (some row) → p (some row) = true → row.status = .pending)
    (hbuilt : ∀ w row row', P w → WritesSeeLoaded t w (.row (.updateWhere k p f)) →
      w.table.visible t k = some (some row) → p (some row) = true → f (some row) = some row' →
      row'.status = .prOpened → BuiltFrom w.outside row')
    (hnext : ∀ w a, ReplacesPending t w → DiffSafe t j Q E (next a) w) :
    DiffSafe t j Q E (.call (.row (.updateWhere k p f)) next) w := by
  -- what the statement matches is a pending proposal
  have hmatch : ∀ w v, P w → WritesSeeLoaded t w (.row (.updateWhere k p f)) →
      w.table.visible t k = some v → p v = true → ∀ row, v = some row → row.status = .pending := by
    intro w v hP hcond hv hp row hrow
    subst hrow
    exact hpending w row hP hcond hv hp
  refine Discipline.safe_row P hw hstable (fun w hP _ hcond v hv hp => ⟨trivial, ?_⟩)
    (fun w s' a hP hinv hcond hexec => ?_) (fun _ _ _ _ _ _ _ _ => trivial)
    fun w s' a hP hinv hcond hexec => hnext ⟨s', w.outside⟩ a ?_
  · intro r₀ hr₀ row hrow hsettled
    subst hrow
    exact absurd ((hreplaces w hP).pending hv (hmatch w v hP hcond hv hp) hr₀) hsettled
  · refine link_exec hinv hexec fun k' row' hwrite hopened => ?_
    obtain ⟨rfl, v, hv, hp, hf⟩ := hwrite
    cases v with
    | none => simp [hnone] at hp
    | some row => exact hbuilt w row row' hP hcond hv hp hf.symm hopened
  · obtain ⟨-, rfl, -⟩ | ⟨v, hv, hp, -, rfl, -⟩ := exec_updateWhere hexec
    · exact hreplaces w hP
    intro k' v' row hheld hcommitted
    rw [committed_synchronize, committed_write] at hcommitted
    rw [held_synchronize] at hheld
    by_cases hk : k' = k
    · subst hk
      exact (hreplaces w hP).pending hv (hmatch w v hP hcond hv hp) hcommitted
    · rw [held_write_of_key_ne hk] at hheld
      exact hreplaces w hP k' v' row hheld hcommitted

/-! ## The functions of the repository -/

/-- Nothing, or all, is asked of a state. -/
def Anywhere {β : Type} (_ : β) (_ : World T) : Prop := True

theorem safe_getProposal (h : ReplacesPending t w) :
    DiffSafe t j (fun _ => ReplacesPending t) E (onRows (getProposal k)) w := by
  refine safe_read (P := ReplacesPending t) h (Or.inr (Or.inl ⟨_, _, rfl⟩))
    (fun _ _ hrely h => h.stable hrely) fun w s' a h hheld hcommitted _ => ?_
  intro k' v row
  rw [hheld, hcommitted]
  exact h k' v row

/-- A fresh session loads the proposal that it gets. -/
theorem safe_getProposal_fresh (h : Fresh t w) :
    DiffSafe t j (fun a w => w.table.Clean t ∧ ∀ row, a = some row →
      w.table.identity t k = some (some row)) E (onRows (getProposal k)) w := by
  refine safe_read (P := Fresh t) h (Or.inr (Or.inl ⟨_, _, rfl⟩))
    (fun _ _ hrely h => Discipline.fresh_rely h hrely) fun w s' a h hheld _ hexec => ?_
  refine ⟨fun k' => ?_, fun row hrow => ?_⟩
  · rw [hheld]
    exact h.1 k'
  · obtain ⟨x, hx, hsnd⟩ := Option.bind_eq_some_iff.mp hrow
    obtain ⟨hidentity, v, -, hp, -⟩ := exec_selectWhere hexec (List.mem_of_mem_head? hx)
    obtain ⟨rfl, -⟩ : x.1 = k ∧ v.isSome = true := by simpa using hp
    rw [hidentity, hsnd]

/-- A conditional update of a pending proposal; where it opens the proposal, its pull request was
built. -/
theorem safe_conditionalUpdate {P : World T → Prop} {condition : Proposal → Bool}
    {values : Proposal → Proposal} (hw : P w)
    (hstable : ∀ w w', (builtDiffs T).contract.rely t w w' → P w → P w')
    (hreplaces : ∀ w, P w → ReplacesPending t w)
    (hpending : ∀ row, condition row = true → row.status = .pending)
    (hbuilt : ∀ w row, P w → (∀ loaded, w.table.identity t k = some (some loaded) →
      (values row).status = .prOpened → row.configDiff = loaded.configDiff) →
      condition row = true → (values row).status = .prOpened → BuiltFrom w.outside (values row)) :
    DiffSafe t j (fun _ => ReplacesPending t) E
      (onRows (conditionalUpdate k condition values)) w := by
  refine safe_updateWhere hw hstable hreplaces rfl
    (fun w row _ _ _ hp => hpending row hp) (fun w row row' hP hcond hv hp hf hopened => ?_)
    fun w a h => ?_
  · obtain rfl : values row = row' := Option.some.inj hf
    refine hbuilt w row hP (fun loaded hloaded hopened => ?_) hp hopened
    exact (hcond loaded row hloaded hv hp).2 (values row) rfl hopened
  · cases a with
    | false => exact h
    | true => exact safe_getProposal h

/-- A conditional update that opens nothing. -/
theorem safe_keepPending {condition : Proposal → Bool} {values : Proposal → Proposal}
    (h : ReplacesPending t w) (hpending : ∀ row, condition row = true → row.status = .pending)
    (hclosed : ∀ row, condition row = true → (values row).status ≠ .prOpened) :
    DiffSafe t j (fun _ => ReplacesPending t) E (onRows (conditionalUpdate k condition values)) w :=
  safe_conditionalUpdate h (fun _ _ hrely h => h.stable hrely) (fun _ h => h) hpending
    fun _ row _ _ hp hopened => absurd hopened (hclosed row hp)

theorem safe_setProposalPrOpenError (error : String) (h : ReplacesPending t w) :
    DiffSafe t j (fun _ => ReplacesPending t) E (onRows (setProposalPrOpenError k error)) w := by
  refine safe_keepPending h (fun row hp => of_decide_eq_true hp) fun row hp => ?_
  have hpending : row.status = .pending := of_decide_eq_true hp
  simp [hpending]

theorem safe_updateProposalForDigest (configDiff : String) (metricDelta : Option String)
    (h : ReplacesPending t w) :
    DiffSafe t j (fun _ => ReplacesPending t) E
      (onRows (updateProposalForDigest k configDiff metricDelta)) w := by
  refine safe_keepPending h (fun row hp => of_decide_eq_true hp) fun row hp => ?_
  have hpending : row.status = .pending := of_decide_eq_true hp
  simp [hpending]

/-- The pull request that a session has built from the proposal that it has loaded. -/
def HasBuilt (t : T) (k : ℕ) (url : String) (w : World T) : Prop :=
  w.table.Clean t ∧ ∃ loaded, w.table.identity t k = some (some loaded) ∧
    ∃ pull ∈ w.outside.pulls, pull.url = url ∧ pull.configDiff = loaded.configDiff

theorem HasBuilt.stable {url : String} (h : HasBuilt t k url w)
    (hrely : (builtDiffs T).contract.rely t w w') : HasBuilt t k url w' := by
  obtain ⟨hclean, loaded, hloaded, pull, hpull, hbuilt⟩ := h
  refine ⟨hclean.frame hrely.1, loaded, ?_, pull, hrely.2.2 pull hpull, hbuilt⟩
  rw [hrely.1.identity, hloaded]

theorem safe_markProposalPrOpened {url : String} (h : HasBuilt t k url w) :
    DiffSafe t j (fun _ => ReplacesPending t) E (onRows (markProposalPrOpened k url)) w := by
  refine safe_conditionalUpdate h (fun _ _ hrely h => h.stable hrely)
    (fun _ h => ReplacesPending.of_clean h.1) (fun row hp => of_decide_eq_true hp)
    fun w row hP hsees hp hopened => ?_
  obtain ⟨-, loaded, hloaded, pull, hpull, hurl, hdiff⟩ := hP
  exact ⟨pull, hpull, congrArg some hurl.symm, hdiff.trans (hsees loaded hloaded hopened).symm⟩

/-- A rejection changes neither the diff of a proposal nor its metrics. -/
theorem safe_rejectProposal (reason : Option String) (h : w.table.Clean t) :
    DiffSafe t j Anywhere Anywhere (onRows (rejectProposal k reason)) w := by
  refine safe_read (P := fun w => w.table.Clean t) h (Or.inr (Or.inl ⟨_, _, rfl⟩))
    (fun _ _ hrely h => h.frame hrely.1) fun w s' a h hheld _ _ => ?_
  have hclean : s'.Clean t := fun k' => by rw [hheld]; exact h k'
  cases hfound : RowOp.liveAnswer (RowOp.select k) a with
  | none =>
    simp only [Program.bind]
    trivial
  | some loaded =>
    simp only [Program.bind]
    split
    · trivial
    · refine Discipline.safe_row (fun w => w.table.Clean t) hclean
        (fun _ _ hrely h => h.frame hrely.1) (fun w h _ _ v hv => ⟨trivial, ?_⟩)
        (fun w s' a h hinv _ hexec => ?_) (fun _ _ _ _ _ _ _ _ => trivial)
        fun _ _ _ _ _ _ _ => trivial
      · intro r₀ hr₀ row hrow hsettled
        obtain rfl : v = r₀ := Option.some.inj (hv.symm.trans ((h.visible k).trans hr₀))
        subst hrow
        exact ⟨_, rfl, by simp, rfl, rfl⟩
      · refine link_exec hinv hexec fun k' row' hwrite hopened => ?_
        obtain ⟨rfl, v, -, hrow⟩ := hwrite
        cases v with
        | none => cases hrow
        | some row =>
          obtain rfl := Option.some.inj hrow
          simp at hopened

theorem safe_supersedeRow (studyIds : List ℕ) (h : ReplacesPending t w) :
    DiffSafe t j (fun _ => ReplacesPending t) E (onRows (supersedeRow studyIds k)) w := by
  refine safe_updateWhere h (fun _ _ hrely h => h.stable hrely) (fun _ h => h) rfl
    (fun w row _ _ _ hp => (of_decide_eq_true hp).2) (fun w row row' _ _ _ _ hf hopened => ?_)
    fun w a h => h
  obtain rfl := Option.some.inj hf
  simp at hopened

theorem safe_bulkMarkSuperseded (visited studyIds : List ℕ) (h : ReplacesPending t w) :
    DiffSafe t j (fun _ => ReplacesPending t) E
      (onRows (bulkMarkSuperseded visited studyIds)) w := by
  unfold bulkMarkSuperseded
  split
  · exact h
  · rw [onRows, Program.mapOps_each]
    exact Safe.each (fun proposalId _ w h => safe_supersedeRow studyIds h) h

/-- A repository function and its caller end without an open transaction. -/
theorem safe_transact {p : Db α} (h : DiffSafe t j Anywhere Anywhere (onRows p) w) :
    DiffSafe t j (fun _ w => w.table.Clean t) (fun _ w => w.table.Clean t)
      (onRows (transact p)) w := by
  have hfinish : ∀ {w : World T} {o : RowOp ℕ (Option Proposal)} {next : o.Res → Worker Unit},
      o = .commit ∨ o = .rollback → (∀ a, next a = .done ()) →
      DiffSafe t j (fun _ w => w.table.Clean t) (fun _ w => w.table.Clean t)
        (.call (.row o) next) w := by
    intro w o next ho hnext
    exact safe_finish ho fun w a hclean => by rw [hnext]; exact hclean
  show DiffSafe t j _ _ (((p.bind fun _ => Transaction.commit).handle
    fun _ => Transaction.rollback).mapOps _ _) w
  rw [Program.mapOps_handle, Program.mapOps_bind]
  refine Safe.handle (Safe.bind (h.mono (fun _ w _ => ?_) fun _ w _ => ?_))
  · exact hfinish (o := .commit) (Or.inl rfl) fun _ => rfl
  · exact hfinish (o := .rollback) (Or.inr rfl) fun _ => rfl

/-! ## The workers -/

/-- A session leaves the next one fresh. -/
theorem safe_session {body : Worker α} (h : DiffSafe t j Anywhere Anywhere body w) :
    DiffSafe t j (fun _ w => Fresh t w) (fun _ w => Fresh t w) (inSession body) w :=
  (Discipline.safe_inSession h (fun _ _ _ _ _ => trivial) fun _ _ _ => trivial).post
    fun _ _ h => h.1

theorem safe_safeSetPrOpenError (error : String) (h : w.table.Clean t) :
    DiffSafe t j Anywhere Anywhere (safeSetPrOpenError k error) w := by
  have hset : DiffSafe t j Anywhere Anywhere (onRows (setProposalPrOpenError k error)) w :=
    (safe_setProposalPrOpenError error (ReplacesPending.of_clean h)).post fun _ _ _ => trivial
  exact (safe_session ((safe_transact hset).mono (fun _ _ _ => trivial) fun _ _ _ => trivial)).mono
    (fun _ _ _ => trivial) fun _ _ _ => trivial

theorem safe_recordPull {url : String} (h : HasBuilt t k url w) :
    DiffSafe t j Anywhere Anywhere (recordPull k url) w := by
  rw [recordPull, onRows, Program.bind_eq, Program.mapOps_bind]
  refine Safe.seq (E := Anywhere) (safe_markProposalPrOpened h) fun _ w _ => ?_
  exact safe_finish (o := .commit) (Or.inl rfl) fun _ _ _ => trivial

/-- GitHub keeps its pull requests. -/
theorem execGithub_grows {github github' : Github} {o : GithubOp} {a : o.Res}
    (h : execGithub github o = some (github', a)) :
    ∀ pull ∈ github.pulls, pull ∈ github'.pulls := by
  cases o with
  | branchExistsOnRemote branch =>
    obtain ⟨rfl, -⟩ := Prod.mk.inj (Option.some.inj h)
    exact fun _ h => h
  | push branch =>
    simp only [execGithub] at h
    split at h
    all_goals
      obtain ⟨rfl, -⟩ := Prod.mk.inj (Option.some.inj h)
      exact fun _ h => h
  | createPull branch configDiff url =>
    simp only [execGithub] at h
    split at h
    · cases h
    split at h
    · obtain ⟨rfl, -⟩ := Prod.mk.inj (Option.some.inj h)
      exact fun _ h => h
    split at h
    · obtain ⟨rfl, -⟩ := Prod.mk.inj (Option.some.inj h)
      exact fun _ h => List.mem_cons_of_mem _ h
    · obtain ⟨rfl, -⟩ := Prod.mk.inj (Option.some.inj h)
      exact fun _ h => h

/-- The answer to a request for a pull request is the address of one that was built from the
diff. -/
theorem execGithub_createPull {github github' : Github} {branch configDiff url url' : String}
    (h : execGithub github (.createPull branch configDiff url) = some (github', some url')) :
    ∃ pull ∈ github'.pulls, pull.url = url' ∧ pull.configDiff = configDiff := by
  simp only [execGithub] at h
  split at h
  · cases h
  split at h
  · simp at h
  split at h
  · obtain ⟨rfl, hurl⟩ := Prod.mk.inj (Option.some.inj h)
    exact ⟨_, List.mem_cons_self, Option.some.inj hurl, rfl⟩
  · simp at h

/-- A session with the proposal that it has loaded. -/
def HasLoaded (t : T) (k : ℕ) (loaded : Proposal) (w : World T) : Prop :=
  w.table.Clean t ∧ w.table.identity t k = some (some loaded)

theorem HasLoaded.stable {loaded : Proposal} (h : HasLoaded t k loaded w)
    (hrely : (builtDiffs T).contract.rely t w w') : HasLoaded t k loaded w' := by
  refine ⟨h.1.frame hrely.1, ?_⟩
  rw [hrely.1.identity]
  exact h.2

/-- A request to GitHub. -/
theorem safe_github {loaded : Proposal} {o : GithubOp} {next : o.Res → Worker α}
    (h : HasLoaded t k loaded w)
    (hnext : ∀ w x' a, HasLoaded t k loaded w → execGithub w.outside o = some (x', a) →
      HasLoaded t k loaded ⟨w.table, x'⟩ → DiffSafe t j Q E (next a) ⟨w.table, x'⟩) :
    DiffSafe t j Q E (.call (.outside o) next) w := by
  refine Discipline.safe_outside (HasLoaded t k loaded) h (fun _ _ hrely h => h.stable hrely)
    (fun w x' a _ hinv _ hexec => ?_) fun w x' a h _ _ hexec => hnext w x' a h hexec h
  have hgrows := execGithub_grows hexec
  exact ⟨fun k row hrow hopened => (hinv.2 k row hrow hopened).mono hgrows, hgrows⟩

theorem safe_requestPull {loaded : Proposal} (run : OpenPrRun) (branch : String)
    (h : HasLoaded t k loaded w) :
    DiffSafe t j Anywhere Anywhere (requestPull run k branch loaded.configDiff) w := by
  unfold requestPull
  split
  · exact safe_safeSetPrOpenError _ h.1
  · exact safe_github h fun w x' a _ _ h => safe_safeSetPrOpenError _ h.1
  · refine safe_github h fun w x' a _ hexec h => ?_
    cases a with
    | none => exact safe_safeSetPrOpenError _ h.1
    | some url =>
      exact safe_recordPull ⟨h.1, loaded, h.2, execGithub_createPull hexec⟩

theorem safe_doOpenPr {loaded : Proposal} (run : OpenPrRun) (h : HasLoaded t k loaded w) :
    DiffSafe t j Anywhere Anywhere (doOpenPr run k loaded) w := by
  unfold doOpenPr
  split
  · exact safe_safeSetPrOpenError _ h.1
  refine safe_github h fun w x' a _ _ h => ?_
  cases a with
  | true => exact safe_safeSetPrOpenError _ h.1
  | false =>
    rw [Program.done_bind, if_neg Bool.false_ne_true]
    split
    · exact safe_safeSetPrOpenError _ h.1
    refine safe_github h fun w x' a _ _ h => ?_
    cases a with
    | false => exact safe_safeSetPrOpenError _ h.1
    | true =>
      rw [Program.done_bind, if_pos rfl]
      split
      · exact safe_safeSetPrOpenError _ h.1
      · exact safe_requestPull run _ h

theorem safe_openPr (run : OpenPrRun) (h : Fresh t w) :
    DiffSafe t j Anywhere Anywhere (openPr run k) w := by
  have hfirst : DiffSafe t j Anywhere Anywhere (onRows (getProposal k)) w :=
    (safe_getProposal_fresh h).post fun _ _ _ => trivial
  refine Safe.bind ((safe_session hfirst).mono (fun found w h => ?_) fun _ _ _ => trivial)
  cases found with
  | none => trivial
  | some proposal =>
    dsimp only
    split
    · trivial
    split
    · exact safe_safeSetPrOpenError _ h.1
    split
    · refine (safe_session (Safe.seq (E := Anywhere) (safe_getProposal_fresh h)
        fun current w h => ?_)).mono (fun _ _ _ => trivial) fun _ _ _ => trivial
      cases current with
      | none => trivial
      | some current =>
        dsimp only
        split
        · trivial
        · exact safe_doOpenPr run ⟨h.1, h.2 current rfl⟩
    · trivial

/-- A session that holds the pending proposal that it has loaded or inserted. -/
def HoldsPending (t : T) (k : ℕ) (w : World T) : Prop :=
  ReplacesPending t w ∧
    ∃ loaded, w.table.identity t k = some (some loaded) ∧ loaded.status = .pending

theorem HoldsPending.stable (h : HoldsPending t k w)
    (hrely : (builtDiffs T).contract.rely t w w') : HoldsPending t k w' := by
  obtain ⟨hreplaces, loaded, hloaded, hpending⟩ := h
  refine ⟨hreplaces.stable hrely, loaded, ?_, hpending⟩
  rw [hrely.1.identity, hloaded]

/-- A new pending proposal. -/
theorem safe_insertPending {row : Proposal} (hpending : row.status = .pending)
    (h : w.table.Clean t) :
    DiffSafe t j (fun _ => HoldsPending t k) E (onRows (Transaction.insert k row)) w := by
  refine Discipline.safe_row (fun w => w.table.Clean t) h (fun _ _ hrely h => h.frame hrely.1)
    (fun _ _ _ _ => trivial) (fun w s' a h hinv _ hexec => ?_) (fun _ _ _ _ _ _ _ _ => trivial)
    fun w s' a h hinv _ hexec => ?_
  · refine link_exec hinv hexec fun k' row' hwrite hopened => ?_
    obtain ⟨rfl, hrow⟩ := hwrite
    obtain rfl : row' = row := Option.some.inj hrow
    simp [hpending] at hopened
  · obtain ⟨hnew, -, rfl⟩ := exec_insert hexec
    refine ⟨fun k' v row' hheld hcommitted => ?_, row, by simp, hpending⟩
    rw [held_remember] at hheld
    by_cases hk : k' = k
    · subst hk
      exact absurd (hnew.symm.trans hcommitted) (by simp)
    · rw [held_write_of_key_ne hk] at hheld
      have hfree : w.table.held t k' = none := h k'
      exact absurd (hfree.symm.trans hheld) (by simp)

/-- The digest finds a pending proposal, or inserts one. -/
theorem safe_ensurePendingProposal (studyId : ℕ) (run : DigestRun) (h : Fresh t w) :
    DiffSafe t j (fun k => HoldsPending t k) E (onRows (ensurePendingProposal studyId run)) w := by
  refine safe_read (P := Fresh t) h (Or.inr (Or.inl ⟨_, _, rfl⟩))
    (fun _ _ hrely h => Discipline.fresh_rely h hrely) fun w s' a h hheld _ hexec => ?_
  have hclean : s'.Clean t := fun k' => by rw [hheld]; exact h.1 k'
  simp only [Program.done_bind]
  split
  · rename_i proposalId loaded hfound
    obtain ⟨x, hx, hrow⟩ := List.mem_filterMap.mp (List.mem_of_getElem? hfound)
    obtain ⟨loaded', hsnd, hpair⟩ := Option.map_eq_some_iff.mp hrow
    obtain ⟨rfl, rfl⟩ := Prod.mk.inj hpair
    obtain ⟨hidentity, v, -, hp, hobject⟩ := exec_selectWhere hexec hx
    have hv : v = some loaded' := by
      rw [← hsnd, hobject, h.2 x.1]
      rfl
    subst hv
    exact ⟨ReplacesPending.of_clean hclean, loaded', hidentity.trans (congrArg some hsnd),
      (of_decide_eq_true hp).2⟩
  · show DiffSafe t j _ E ((onRows (Transaction.insert run.newProposalId _)).bind fun _ =>
      .done run.newProposalId) ⟨s', w.outside⟩
    exact Safe.seq (safe_insertPending rfl hclean) fun _ _ h => h

theorem onRows_discard (p : Db α) :
    (onRows (discard p) : Worker Unit) = (onRows p).bind fun _ => .done () :=
  Program.mapOps_bind p _

theorem safe_deleteRow (h : HoldsPending t k w) :
    DiffSafe t j (fun _ => ReplacesPending t) E (deleteRow k) w := by
  refine safe_updateWhere h (fun _ _ hrely h => h.stable hrely) (fun _ h => h.1) rfl
    (fun w row hP hsees hv hp => ?_) (fun _ _ _ _ _ _ _ hf => by cases hf) fun _ _ h => h
  obtain ⟨-, loaded, hloaded, hpending⟩ := hP
  rw [(hsees loaded row hloaded hv hp).1 rfl, hpending]

theorem safe_writeProposal (path : DigestPath) (h : HoldsPending t k w) :
    DiffSafe t j Anywhere Anywhere (writeProposal k path) w := by
  cases path with
  | zeroTrials => exact Safe.seq (E := Anywhere) (safe_deleteRow h) fun _ _ _ => trivial
  | aborted => trivial
  | degraded => trivial
  | allDropped => exact Safe.seq (E := Anywhere) (safe_deleteRow h) fun _ _ _ => trivial
  | standard configDiff metricDelta =>
    rw [writeProposal, onRows_discard]
    exact Safe.seq (E := Anywhere) (safe_updateProposalForDigest configDiff metricDelta h.1)
      fun _ _ _ => trivial

theorem safe_generateDigest (studyId : ℕ) (run : DigestRun) (h : Fresh t w) :
    DiffSafe t j Anywhere Anywhere (generateDigest studyId run) w := by
  unfold generateDigest
  split
  · refine (safe_session (Safe.seq (E := Anywhere) (safe_ensurePendingProposal studyId run h)
      fun proposalId w h => ?_)).mono (fun _ _ _ => trivial) fun _ _ _ => trivial
    split
    · trivial
    split
    · refine Safe.seq (E := Anywhere) (safe_writeProposal _ h) fun _ w _ => ?_
      exact safe_finish (o := .commit) (Or.inl rfl) fun _ _ _ => trivial
    · exact safe_finish (o := .rollback) (Or.inr rfl) fun _ _ _ => trivial
  · trivial

theorem safe_serve (request : SessionRequest) (h : w.table.Clean t) :
    DiffSafe t j (fun _ w => w.table.Clean t) (fun _ w => w.table.Clean t)
      (onRows (serve request.toRequest)) w := by
  cases request with
  | get proposalId =>
    refine safe_read (P := fun w => w.table.Clean t) h (Or.inr (Or.inl ⟨_, _, rfl⟩))
      (fun _ _ hrely h => h.frame hrely.1) fun w s' a h hheld _ _ k' => ?_
    rw [hheld]
    exact h k'
  | reject proposalId reason => exact safe_transact (safe_rejectProposal reason h)
  | rollup visited loserIds =>
    exact safe_transact ((safe_bulkMarkSuperseded visited loserIds
      (ReplacesPending.of_clean h)).post fun _ _ _ => trivial)

/-- The workers meet the contract. -/
theorem builtDiffs_met : (builtDiffs T).contract.Met (pullRequestSystem T) := by
  refine Discipline.contract_met fun t j w _ _ h => ?_
  cases j with
  | generateDigest studyId run => exact safe_generateDigest studyId run h
  | openPr proposalId run => exact safe_openPr run h
  | session requests =>
    show DiffSafe t _ _ _ (onRows (Program.each serve (requests.map SessionRequest.toRequest))) w
    rw [onRows, Program.mapOps_each]
    refine (Safe.each (E := fun _ w => w.table.Clean t) (I := fun w => w.table.Clean t)
      (fun request hrequest w h => ?_) h.1).mono (fun _ _ _ => trivial) fun _ _ _ => trivial
    obtain ⟨sessionRequest, -, rfl⟩ := List.mem_map.mp hrequest
    exact safe_serve sessionRequest h

/-! ## Runs -/

/-- When the last writes meet the proposals as they were loaded, the diffs are the built ones. -/
theorem diffs_are_built {w : World T} (hunlocked : ∀ k, w.table.lock k = none)
    (hbuilt : ∀ k row, w.table.committed k = some (some row) → row.status = .prOpened →
      BuiltFrom w.outside row) : DiffsAreBuilt T WritesSeeLoaded w := by
  have hmet := builtDiffs_met (T := T)
  have hinv : (builtDiffs T).contract.inv w :=
    ⟨Disciplined.of_unlocked hunlocked fun _ _ _ => trivial, fun k row hrow =>
      hbuilt k row ((mem_versions_of_unlocked hunlocked).mp hrow)⟩
  have hsound : ∀ c, (pullRequestSystem T).Run WritesSeeLoaded (System.idle w) c →
      (builtDiffs T).contract.Sound (pullRequestSystem T) c := fun c hrun =>
    hmet.run (Contract.sound_idle hinv) hrun
  have hkeeps : ∀ j w w', (builtDiffs T).contract.change j w w' → ∀ k row,
      w.table.committed k = some (some row) → row.status ≠ .pending →
      ∃ row', w'.table.committed k = some (some row') ∧ row'.status ≠ .pending ∧
        row'.configDiff = row.configDiff ∧ row'.metricDelta = row.metricDelta := by
    intro j w w' hchange k row hrow hsettled
    obtain ⟨r', hr', hrel, -⟩ := hchange k _ hrow
    obtain ⟨row', rfl, hkept⟩ := hrel row rfl hsettled
    exact ⟨row', hr', hkept⟩
  constructor
  · intro c hrun k row hrow
    exact (hsound c hrun).1.2 k row (mem_versions.mpr (Or.inl hrow))
  · intro c c' hrun hrest k row hrow hopened
    have hkept := hmet.run_keeps (P := fun w => ∃ row', w.table.committed k = some (some row') ∧
        row'.status ≠ .pending ∧ row'.configDiff = row.configDiff)
      (fun j w w' hchange hkept => ?_) (hsound c hrun) ⟨row, hrow, by simp [hopened], rfl⟩ hrest
    · obtain ⟨row', hrow', -, hdiff⟩ := hkept
      exact ⟨row', hrow', hdiff⟩
    · obtain ⟨row₁, hrow₁, hsettled₁, hdiff₁⟩ := hkept
      obtain ⟨row₂, hrow₂, hsettled₂, hdiff₂, -⟩ := hkeeps j w w' hchange k row₁ hrow₁ hsettled₁
      exact ⟨row₂, hrow₂, hsettled₂, hdiff₂.trans hdiff₁⟩
  · intro c c' hrun hstep k row hrow hsettled
    obtain ⟨_, j, hchange, _⟩ := (hmet.step (hsound c hrun) hstep).2
    exact hkeeps j _ _ hchange k row hrow hsettled

/-- `WritesSeeLoaded`, decided. -/
def writesSeeLoaded (t : T) (w : World T) : BesideOp ℕ (Option Proposal) GithubOp → Bool
  | .row (.updateWhere k p f) =>
    (w.table.identity t k).join.all fun loaded => (w.table.visible t k).join.all fun row =>
      !p (some row) || (((f (some row)).isSome || decide (row.status = loaded.status)) &&
        (f (some row)).all fun row' =>
          decide (row'.status = .prOpened → row.configDiff = loaded.configDiff))
  | _ => true

theorem writesSeeLoaded_spec (t : T) (w : World T) (o : BesideOp ℕ (Option Proposal) GithubOp)
    (h : writesSeeLoaded t w o = true) : WritesSeeLoaded t w o := by
  cases o with
  | outside o => trivial
  | row o =>
    cases o with
    | updateWhere k p f =>
      intro loaded row hloaded hrow hp
      simp only [writesSeeLoaded, hloaded, hrow, hp, Option.join_some, Option.all_some,
        Bool.not_true, Bool.false_or, Bool.and_eq_true, Bool.or_eq_true, decide_eq_true_eq] at h
      obtain ⟨hdeleted, hopened⟩ := h
      refine ⟨fun hnone => ?_, fun row' hrow' hstatus => ?_⟩
      · simpa [hnone] using hdeleted
      · rw [hrow', Option.all_some, decide_eq_true_eq] at hopened
        exact hopened hstatus
    | _ => trivial

/-- A completed study whose proposal is not filled yet. -/
def completedStudy : World ℕ where
  table :=
    { keys := [0]
      committed := fun k =>
        if k = 0 then some (some { studyId := some 7, configDiff := "", status := .pending })
        else none
      lock := fun _ => none
      identity := fun _ _ => none }
  outside := emptyGithub

theorem completedStudy_built (k : ℕ) (row : Proposal)
    (h : completedStudy.table.committed k = some (some row)) :
    row.status = .prOpened → BuiltFrom completedStudy.outside row := by
  obtain ⟨-, hrow⟩ := Option.ite_none_right_eq_some.mp h
  obtain rfl := Option.some.inj (Option.some.inj hrow)
  exact fun hopened => by cases hopened

/-- The proposal of the study, and the diffs that pull requests were built from. -/
structure Outcome where
  proposal : Option (Option (ProposalStatus × String))
  pulls : List String
  deriving DecidableEq

/-- What a run comes to. -/
def outcomeOf (c : Config ℕ Job (World ℕ) (BesideOp ℕ (Option Proposal) GithubOp)
    (BesideOp.Res GithubOp.Res) ProposalError) : Outcome where
  proposal := (c.world.table.committed 0).map fun r =>
    r.map fun row => (row.status, row.configDiff)
  pulls := c.world.outside.pulls.map PullRequest.configDiff

/-- A digest that recommends a boost. -/
def boostDigest : Job := .generateDigest 7 { path := .standard "boost" none }

/-- A delivery of `open_pr` that GitHub answers. -/
def answeredOpenPr : Job := .openPr 0 { pullCall := .answered "pull/1" }

/-- `n` operations of a task. -/
def calls (t n : ℕ) : List (Action ℕ Job) := List.replicate n (.call t)

/-- A digest, and then a pull request. -/
theorem diffs_are_built_completedStudy :
    DiffsAreBuilt ℕ WritesSeeLoaded completedStudy ∧
      ∃ c, (pullRequestSystem ℕ).Run WritesSeeLoaded (System.idle completedStudy) c ∧
        outcomeOf c = ⟨some (some (.prOpened, "boost")), ["boost"]⟩ := by
  refine ⟨diffs_are_built (fun _ => rfl) completedStudy_built, ?_⟩
  have hrun : ((((pullRequestSystem ℕ).guard writesSeeLoaded).schedule (System.idle completedStudy)
      (.start 0 boostDigest :: calls 0 4 ++ .start 1 answeredOpenPr :: calls 1 9)).map outcomeOf) =
      some ⟨some (some (.prOpened, "boost")), ["boost"]⟩ := by decide +kernel
  obtain ⟨c, hc, houtcome⟩ := Option.map_eq_some_iff.mp hrun
  exact ⟨c, (pullRequestSystem ℕ).run_of_guarded writesSeeLoaded_spec hc, houtcome⟩

/-- A digest of a study without successful trials. -/
def zeroTrialsDigest : Job := .generateDigest 7 { path := .zeroTrials }

/-- The rejection of the proposal. -/
def rejection : Job := .session [.reject 0 none]

/-- The system without a condition. -/
abbrev freeSystem := (pullRequestSystem ℕ).guard fun _ _ _ => true

theorem run_of_schedule {actions : List (Action ℕ Job)}
    {c c' : Config ℕ Job (World ℕ) (BesideOp ℕ (Option Proposal) GithubOp)
      (BesideOp.Res GithubOp.Res) ProposalError} (h : freeSystem.schedule c actions = some c') :
    (pullRequestSystem ℕ).Run (fun _ _ _ => True) c c' :=
  (pullRequestSystem ℕ).run_of_guarded (fun _ _ _ _ => trivial) h

/-- A digest fills the proposal while its pull request is built from the empty diff, and a digest
without successful trials deletes a proposal that was rejected meanwhile. -/
theorem digest_overtakes :
    (∃ c, (pullRequestSystem ℕ).Run (fun _ _ _ => True) (System.idle completedStudy) c ∧
      outcomeOf c = ⟨some (some (.prOpened, "boost")), [""]⟩) ∧
    (∃ c c', (pullRequestSystem ℕ).Run (fun _ _ _ => True) (System.idle completedStudy) c ∧
      (pullRequestSystem ℕ).Run (fun _ _ _ => True) c c' ∧
      outcomeOf c = ⟨some (some (.rejected, "")), []⟩ ∧ outcomeOf c' = ⟨some none, []⟩) ∧
    ¬ DiffsAreBuilt ℕ (fun _ _ _ => True) completedStudy := by
  have hfilled : (freeSystem.schedule (System.idle completedStudy)
      (.start 0 answeredOpenPr :: calls 0 3 ++ .start 1 boostDigest :: calls 1 4 ++
        calls 0 6)).map outcomeOf = some ⟨some (some (.prOpened, "boost")), [""]⟩ := by
    decide +kernel
  have hdeleted : ((freeSystem.schedule (System.idle completedStudy)
      (.start 1 zeroTrialsDigest :: calls 1 1 ++ .start 0 rejection :: calls 0 3)).bind fun c =>
        (freeSystem.schedule c (calls 1 2)).map fun c' => (outcomeOf c, outcomeOf c')) =
      some (⟨some (some (.rejected, "")), []⟩, ⟨some none, []⟩) := by decide +kernel
  obtain ⟨c₁, hc₁, hopened⟩ := Option.map_eq_some_iff.mp hfilled
  obtain ⟨c₂, hc₂, hrest⟩ := Option.bind_eq_some_iff.mp hdeleted
  obtain ⟨c₃, hc₃, houtcomes⟩ := Option.map_eq_some_iff.mp hrest
  obtain ⟨hrejected, hgone⟩ := Prod.mk.inj houtcomes
  refine ⟨⟨c₁, run_of_schedule hc₁, hopened⟩,
    ⟨c₂, c₃, run_of_schedule hc₂, run_of_schedule hc₃, hrejected, hgone⟩, fun h => ?_⟩
  obtain ⟨hproposal, hpulls⟩ := Outcome.mk.inj hopened
  obtain ⟨r, hr, hrow⟩ := Option.map_eq_some_iff.mp hproposal
  obtain ⟨row, rfl, hstate⟩ := Option.map_eq_some_iff.mp hrow
  obtain ⟨hstatus, hdiff⟩ := Prod.mk.inj hstate
  obtain ⟨pull, hpull, -, hbuilt⟩ := h.built c₁ (run_of_schedule hc₁) 0 row hr hstatus
  have hempty : pull.configDiff ∈ c₁.world.outside.pulls.map PullRequest.configDiff :=
    List.mem_map_of_mem hpull
  rw [hpulls, hbuilt, hdiff] at hempty
  simp at hempty

end RelyLoop.Proposals.PullRequests
