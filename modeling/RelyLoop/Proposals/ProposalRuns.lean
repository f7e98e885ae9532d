import RelyLoop.Proposals.ProposalState

/-!
# Committed changes of proposals

Which changes of `proposals.status` the sessions can commit, over whole runs, and
which pull-request states. A conditional update checks the row that it writes.
A rejection or a reinstatement checks the loaded object and writes the row
later, so it is safe as long as the row still has the loaded status then.
-/

namespace RelyLoop.Proposals

open Concurrency Store

variable {T : Type} [DecidableEq T]

/-- The changes of a status that are meant to be committed. -/
def committedChanges : ProposalStatus → List ProposalStatus
  | .pending => [.prOpened, .rejected, .superseded]
  | .superseded => [.pending]
  | .prOpened => [.prMerged]
  | .prMerged => []
  | .rejected => []

/-- The statuses of a proposal without a pull request. -/
def unopened : List ProposalStatus := [.pending, .rejected, .superseded]

/-- A proposal without a pull request has no pull-request state. -/
def PrStateFits (row : Proposal) : Prop := row.status ∈ unopened → row.prState = none

/-- The changes of a row that are meant to be committed. -/
def ProposalChange (r r' : Proposal) : Prop :=
  r'.status = r.status ∨ r'.status ∈ committedChanges r.status

/-- When a session flushes a change of a loaded proposal, the row still has the
loaded status, or it already has the status that is written. -/
def FlushSeesStatus (t : T) (s : Store T ℕ Proposal) : RowOp ℕ Proposal → Prop
  | .update k f => ∀ loaded row, s.identity t k = some loaded → s.visible t k = some row →
      loaded.status = row.status ∨ (f row).status = row.status
  | _ => True

/-- In every run from idle sessions on the table `w` whose statements meet
`cond`, each committed change of a status is a meant one, and committed
proposals without a pull request have no pull-request state. -/
def ProposalsFollowMachine (T : Type) [DecidableEq T]
    (cond : T → Store T ℕ Proposal → RowOp ℕ Proposal → Prop) (w : Store T ℕ Proposal) : Prop :=
  (∀ c c', (proposalSystem T).Run cond (System.idle w) c → (proposalSystem T).Step cond c c' →
    ∀ k r, c.world.committed k = some r → ∃ r', c'.world.committed k = some r' ∧
      (r'.status = r.status ∨ r'.status ∈ committedChanges r.status)) ∧
  (∀ c, (proposalSystem T).Run cond (System.idle w) c →
    ∀ k r, c.world.committed k = some r → r.status ∈ unopened → r.prState = none)

/-! ## The repository functions are safe -/

/-- The contract of the sessions on the `proposals` table. -/
abbrev proposalContract (T : Type) [DecidableEq T] :=
  tableContract (List Request) ProposalChange PrStateFits (FlushSeesStatus (T := T))

/-- `p` is safe for the contract of the `proposals` table. -/
abbrev ProposalSafe {α : Type} (code : List Request → Db Unit) (t : T) (j : List Request)
    (Q : α → Store T ℕ Proposal → Prop) (E : ProposalError → Store T ℕ Proposal → Prop) (p : Db α)
    (s : Store T ℕ Proposal) : Prop :=
  Safe (tableSystem code) (proposalContract T) t j Q E p s

variable {code : List Request → Db Unit} {t : T} {j : List Request} {s : Store T ℕ Proposal}
variable {α : Type}

/-- A change from the required status to a meant one, which leaves the
pull-request state alone, is safe where the flush sees the loaded status. -/
theorem safe_readCheckWrite (hs : s.Clean t) (proposalId : ℕ) {required : ProposalStatus}
    (target : ProposalStatus)
    {change : Proposal → Proposal → Proposal} (htarget : target ∈ committedChanges required)
    (hrequired : required ∈ unopened)
    (hstatus : ∀ loaded row, (change loaded row).status = target)
    (hstate : ∀ loaded row, (change loaded row).prState = row.prState) :
    ProposalSafe code t j (fun _ _ => True) (fun _ _ => True)
      (readCheckWrite proposalId required change) s := by
  refine Safe.read hs (Or.inl ⟨proposalId, rfl⟩) fun s s' a _ hclean hexec => ?_
  obtain ⟨hs', ha⟩ := Prod.mk.inj (Option.some.inj hexec)
  cases a with
  | none => trivial
  | some loaded =>
    have hloaded : s'.identity t proposalId = some loaded := by
      rw [← hs']
      exact identity_load ha
    by_cases hcheck : loaded.status = required
    · have hpre : s'.Clean t ∧ s'.identity t proposalId = some loaded := ⟨hclean, hloaded⟩
      simp only [Program.done_bind, ne_eq, hcheck, not_true_eq_false, if_false]
      refine Safe.statement (fun s => s.Clean t ∧ s.identity t proposalId = some loaded) hpre
        (fun _ _ hf h => ⟨h.1.frame hf, by rw [hf.identity, h.2]⟩)
        (fun s hs hinv hsees v hv => ?_) fun _ _ _ _ _ _ => trivial
      obtain ⟨hclean, hloaded⟩ := hs
      have hcommitted : s.committed proposalId = some v := by rwa [← hclean.visible]
      have hfits := hinv.committed proposalId v hcommitted
      rcases hsees loaded v hloaded hv with hsame | hsame
      · have hv : v.status = required := hsame.symm.trans hcheck
        have hnone : v.prState = none := hfits (hv ▸ hrequired)
        refine ⟨fun _ => (hstate loaded v).trans hnone, fun r₀ hr₀ => ?_⟩
        obtain rfl : v = r₀ := Option.some.inj (hcommitted.symm.trans hr₀)
        exact Or.inr (by rwa [hstatus, hv])
      · refine ⟨fun hun => (hstate loaded v).trans (hfits (hsame ▸ hun)), fun r₀ hr₀ => ?_⟩
        obtain rfl : v = r₀ := Option.some.inj (hcommitted.symm.trans hr₀)
        exact Or.inl hsame
    · simp [hcheck]

/-- What a conditional update has to keep: each row that it matches may become
what it writes. -/
def KeepsMachine (condition : Proposal → Bool) (values : Proposal → Proposal) : Prop :=
  ∀ v, PrStateFits v → condition v = true → PrStateFits (values v) ∧ ProposalChange v (values v)

/-- A conditional update that keeps the machine is an allowed statement, when it
matches no version of its own transaction. -/
theorem allowed_updateWhere {proposalId : ℕ} {condition : Proposal → Bool}
    {values : Proposal → Proposal} (hkeeps : KeepsMachine condition values)
    (hown : ∀ r, s.held t proposalId = some (some r) → condition r = false)
    (hinv : s.Disciplined ProposalChange PrStateFits) :
    s.Allowed ProposalChange PrStateFits t (.updateWhere proposalId condition values) := by
  intro v hv hcondition
  have hcommitted : s.committed proposalId = some v := by
    unfold Store.visible at hv
    split at hv
    · rename_i r hheld
      rw [Option.some.inj hv] at hheld
      simp [hown v hheld] at hcondition
    · exact hv
  obtain ⟨hfits, hchange⟩ := hkeeps v (hinv.committed proposalId v hcommitted) hcondition
  refine ⟨hfits, fun r₀ hr₀ => ?_⟩
  obtain rfl : v = r₀ := Option.some.inj (hcommitted.symm.trans hr₀)
  exact hchange

theorem safe_conditionalUpdate (hs : s.Clean t) (proposalId : ℕ) {condition : Proposal → Bool}
    {values : Proposal → Proposal} (hkeeps : KeepsMachine condition values) :
    ProposalSafe code t j (fun _ _ => True) (fun _ _ => True)
      (conditionalUpdate proposalId condition values) s := by
  refine Safe.statement (Store.Clean t) hs (fun _ _ hf h => h.frame hf)
    (fun s hs hinv _ => allowed_updateWhere hkeeps (fun r h => by simp [hs proposalId] at h) hinv)
    fun s s' a _ _ _ => ?_
  cases a with
  | false => trivial
  | true =>
    exact Safe.statement (fun _ => True) trivial (fun _ _ _ _ => trivial)
      (fun _ _ _ _ => trivial) fun _ _ _ _ _ _ => trivial

/-- All versions that the transaction of `t` has written are superseded. -/
def Superseding (t : T) (s : Store T ℕ Proposal) : Prop :=
  ∀ k r, s.held t k = some (some r) → r.status = .superseded

theorem safe_supersedeRow (hs : Superseding t s) (studyIds : List ℕ) (proposalId : ℕ) :
    ProposalSafe code t j (fun _ => Superseding t) (fun _ _ => True)
      (supersedeRow studyIds proposalId) s := by
  refine Safe.statement (Superseding t) hs
    (fun _ _ hf h k r hr => h k r ((hf.held k).symm.trans hr)) (fun s hs hinv _ => ?_)
    fun s s' a hs _ hexec => ?_
  · refine allowed_updateWhere (fun v hfits hcondition => ?_)
      (fun r hr => by simp [hs proposalId r hr]) hinv
    have hpending : v.status = .pending := (of_decide_eq_true hcondition).2
    exact ⟨fun _ => hfits (by simp [hpending, unopened]),
      Or.inr (by simp [hpending, committedChanges])⟩
  · obtain ⟨-, rfl, -⟩ | ⟨v, -, -, -, rfl, -⟩ := exec_updateWhere hexec
    · exact hs
    · intro k r hr
      rw [held_synchronize] at hr
      by_cases hk : k = proposalId
      · subst hk
        rw [held_write] at hr
        rw [← Option.some.inj (Option.some.inj hr)]
      · exact hs k r (by rwa [held_write_of_key_ne hk] at hr)

theorem safe_bulkMarkSuperseded (hs : s.Clean t) (visited studyIds : List ℕ) :
    ProposalSafe code t j (fun _ _ => True) (fun _ _ => True)
      (bulkMarkSuperseded visited studyIds) s := by
  unfold bulkMarkSuperseded
  split
  · trivial
  · have hstart : Superseding t s := fun k r h => by simp [hs k] at h
    exact (Safe.each (I := Superseding t)
      (fun proposalId _ _ hs => safe_supersedeRow hs studyIds proposalId) hstart).mono
      (fun _ _ _ => trivial) fun _ _ _ => trivial

/-- A function and its caller end without an open transaction. -/
theorem safe_transact {p : Db α}
    (hp : ProposalSafe code t j (fun _ _ => True) (fun _ _ => True) p s) :
    ProposalSafe code t j (fun _ s => s.Clean t) (fun _ s => s.Clean t) (transact p) s :=
  Safe.handle (Safe.bind (hp.mono (fun _ _ _ => Safe.finish (Or.inl rfl) fun _ _ h => h)
    fun _ _ _ => Safe.finish (Or.inr rfl) fun _ _ h => h))

/-- Every request leaves the session without an open transaction. -/
theorem safe_serve (hs : s.Clean t) (request : Request) :
    ProposalSafe code t j (fun _ s => s.Clean t) (fun _ s => s.Clean t) (serve request) s := by
  cases request with
  | get proposalId => exact Safe.read hs (Or.inl ⟨_, rfl⟩) fun _ _ _ _ hs _ => hs
  | lookupByPrUrl prUrl =>
    exact Safe.read hs (Or.inr (Or.inl ⟨_, _, rfl⟩)) fun _ _ _ _ hs _ => hs
  | release proposalId =>
    exact Safe.read hs (Or.inr (Or.inr ⟨_, rfl⟩)) fun _ _ _ _ hs _ => hs
  | reject proposalId reason =>
    exact safe_transact (safe_readCheckWrite hs proposalId .rejected (by decide)
      (by decide) (fun _ _ => rfl) fun _ _ => rfl)
  | reinstate proposalId =>
    exact safe_transact (safe_readCheckWrite hs proposalId .pending (by decide)
      (by decide) (fun _ _ => rfl) fun _ _ => rfl)
  | markPrOpened proposalId prUrl =>
    refine safe_transact (safe_conditionalUpdate hs proposalId fun v _ hv => ?_)
    have hpending : v.status = .pending := of_decide_eq_true hv
    exact ⟨fun h => by simp [unopened] at h, Or.inr (by simp [hpending, committedChanges])⟩
  | setPrOpenError proposalId error =>
    exact safe_transact (safe_conditionalUpdate hs proposalId fun _ hfits _ => ⟨hfits, Or.inl rfl⟩)
  | markPrMerged proposalId prMergedAt =>
    refine safe_transact (safe_conditionalUpdate hs proposalId fun v _ hv => ?_)
    have hopened : v.status = .prOpened := (of_decide_eq_true hv).1
    exact ⟨fun h => by simp [unopened] at h, Or.inr (by simp [hopened, committedChanges])⟩
  | markPrMergedFromClosed proposalId prMergedAt =>
    refine safe_transact (safe_conditionalUpdate hs proposalId fun v _ hv => ?_)
    have hopened : v.status = .prOpened := (of_decide_eq_true hv).1
    exact ⟨fun h => by simp [unopened] at h, Or.inr (by simp [hopened, committedChanges])⟩
  | markPrClosed proposalId =>
    refine safe_transact (safe_conditionalUpdate hs proposalId fun v _ hv =>
      ⟨fun h => ?_, Or.inl rfl⟩)
    have hopened : v.status = .prOpened := (of_decide_eq_true hv).1
    simp [hopened, unopened] at h
  | markPrReopened proposalId =>
    refine safe_transact (safe_conditionalUpdate hs proposalId fun v _ hv =>
      ⟨fun h => ?_, Or.inl rfl⟩)
    have hopened : v.status = .prOpened := (of_decide_eq_true hv).1
    simp [hopened, unopened] at h
  | bulkMarkSuperseded visited studyIds =>
    exact safe_transact (safe_bulkMarkSuperseded hs visited studyIds)
  | updateForDigest proposalId configDiff metricDelta =>
    exact safe_transact (safe_conditionalUpdate hs proposalId fun _ hfits _ => ⟨hfits, Or.inl rfl⟩)

/-- The sessions meet the contract of the `proposals` table. -/
theorem proposalContract_met : (proposalContract T).Met (proposalSystem T) :=
  tableContract_met fun t _ _ hheld _ =>
    (Safe.each (I := Clean t) (fun request _ _ hs => safe_serve hs request) hheld).mono
      (fun _ _ _ => trivial) fun _ _ _ => trivial

/-! ## Runs -/

/-- Sessions whose flushes see the status of the row follow the state machine. -/
theorem proposals_follow_machine {w : Store T ℕ Proposal} (hunlocked : ∀ k, w.lock k = none)
    (hfits : ∀ k r, w.committed k = some r → r.status ∈ unopened → r.prState = none) :
    ProposalsFollowMachine T FlushSeesStatus w := by
  have hmet := proposalContract_met (T := T)
  have hinv : (proposalContract T).inv w := Disciplined.of_unlocked hunlocked hfits
  have hsound : ∀ c, (proposalSystem T).Run FlushSeesStatus (System.idle w) c →
      (proposalContract T).Sound (proposalSystem T) c := fun c hrun =>
    hmet.run (Contract.sound_idle hinv) hrun
  refine ⟨fun c c' hrun hstep k r hr => ?_, fun c hrun k r hr => ?_⟩
  · obtain ⟨_, _, hchange, _⟩ := (hmet.step (hsound c hrun) hstep).2
    obtain ⟨r', hr', rfl | hrel⟩ := hchange k r hr
    · exact ⟨r', hr', Or.inl rfl⟩
    · exact ⟨r', hr', hrel⟩
  · exact (hsound c hrun).1.committed k r hr

/-- `FlushSeesStatus`, decided. -/
def flushSeesStatus (t : T) (s : Store T ℕ Proposal) : RowOp ℕ Proposal → Bool
  | .update k f => (s.identity t k).all fun loaded => (s.visible t k).all fun row =>
      loaded.status = row.status ∨ (f row).status = row.status
  | _ => true

theorem flushSeesStatus_spec (t : T) (s : Store T ℕ Proposal) (o : RowOp ℕ Proposal)
    (h : flushSeesStatus t s o = true) : FlushSeesStatus t s o := by
  cases o with
  | update k f =>
    intro loaded row hloaded hrow
    simpa [flushSeesStatus, hloaded, hrow] using h
  | _ => trivial

/-- A table with one pending proposal. -/
def onePending : Store ℕ ℕ Proposal where
  keys := [0]
  committed k := if k = 0 then some { configDiff := "boost: 1 -> 2", status := .pending } else none
  lock _ := none
  identity _ _ := none

theorem onePending_fits (k : ℕ) (r : Proposal) (h : onePending.committed k = some r) :
    r.status ∈ unopened → r.prState = none := by
  obtain ⟨-, hrow⟩ := Option.ite_none_right_eq_some.mp h
  obtain rfl := Option.some.inj hrow
  exact fun _ => rfl

/-- The committed status and pull-request state of a proposal. -/
def stateOf (c : Config ℕ (List Request) (Store ℕ ℕ Proposal) (RowOp ℕ Proposal) RowOp.Res
    ProposalError) (proposalId : ℕ) : Option (ProposalStatus × Option PrState) :=
  (c.world.committed proposalId).map fun row => (row.status, row.prState)

/-- A rejection and a worker that opens the pull request too late: the condition
holds throughout, and the rejection stands. -/
theorem proposals_follow_machine_onePending :
    ProposalsFollowMachine ℕ FlushSeesStatus onePending ∧
      ∃ c, (proposalSystem ℕ).Run FlushSeesStatus (System.idle onePending) c ∧
        stateOf c 0 = some (.rejected, none) := by
  refine ⟨proposals_follow_machine (fun _ => rfl) onePending_fits, ?_⟩
  have hrun : ((((proposalSystem ℕ).guard flushSeesStatus).schedule (System.idle onePending)
      [.start 0 [.reject 0 (some "no")], .call 0, .call 0, .call 0, .stop 0,
        .start 1 [.markPrOpened 0 "pull/1"], .call 1, .call 1]).map fun c => stateOf c 0) =
      some (some (.rejected, none)) := by decide
  obtain ⟨c, hc, hstate⟩ := Option.map_eq_some_iff.mp hrun
  exact ⟨c, (proposalSystem ℕ).run_of_guarded flushSeesStatus_spec hc, hstate⟩

/-- Without the condition a rejection that has read `pending` overwrites the
`pr_opened` that the worker commits meanwhile, and leaves the pull-request state. -/
theorem stale_reject_overwrites_opened :
    ¬ ProposalsFollowMachine ℕ (fun _ _ _ => True) onePending := by
  have hrun : ((((proposalSystem ℕ).guard fun _ _ _ => true).schedule (System.idle onePending)
      [.start 0 [.reject 0 (some "no")], .call 0,
        .start 1 [.markPrOpened 0 "pull/1"], .call 1, .call 1, .call 1, .stop 1,
        .call 0, .call 0]).map fun c => stateOf c 0) =
      some (some (.rejected, some .opened)) := by decide
  obtain ⟨c, hc, hstate⟩ := Option.map_eq_some_iff.mp hrun
  obtain ⟨r, hr, hrejected⟩ := Option.map_eq_some_iff.mp hstate
  obtain ⟨hstatus, hprState⟩ := Prod.mk.inj hrejected
  rintro ⟨-, hnone⟩
  have hfits := hnone c ((proposalSystem ℕ).run_of_guarded (fun _ _ _ _ => trivial) hc) 0 r hr
  have hunopened : r.status ∈ unopened := by
    rw [hstatus]
    decide
  simp [hprState] at hfits
  exact hfits hunopened

end RelyLoop.Proposals
