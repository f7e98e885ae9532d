import RelyLoop.Judgments.Workers

/-!
# The judgment workers are safe

Every exit of the two workers, the early ones in the first session and the late
ones in a session of their own, keeps a discipline that suits the judgment jobs.
-/

/-!
## The sessions of the judgment jobs

The jobs are safe for every discipline that `Suits` them: one that keeps the
generation parameters, that does not look at the calibration, and that allows
what the flush of a status writes and what the callers enqueue. What a session
knows about the list it works on is `OnList`.
-/

namespace RelyLoop.Judgments

open Concurrency Store

variable {T : Type} [DecidableEq T]

/-- A discipline of the judgment jobs. -/
abbrev JudgmentDiscipline (T : Type) [DecidableEq T] :=
  Discipline T Job ℕ JudgmentList Queue QueueOp

/-- The list's generation parameters say `ubi`. -/
def JudgmentList.isUbi (row : JudgmentList) : Bool :=
  row.generationParams.any fun params => params.generationKind = .ubi

/-- The worker that a list belongs to. -/
def routedWorker (row : JudgmentList) : Worker :=
  if row.isUbi then .generateJudgmentsFromUbi else .generateJudgmentsLlm

/-- The worker that a caller chooses for a list. -/
def chosenWorker (caller : Caller) (row : JudgmentList) : Worker :=
  match caller with
  | .dispatch => routedWorker row
  | .onStartup =>
    if row.generationParams.isSome then .generateJudgmentsFromUbi else .generateJudgmentsLlm
  | .resumeTick => .generateJudgmentsLlm

/-- The assignments of `update_judgment_list_status` in the workers. -/
def TerminalUpdate (status : JudgmentListStatus) (failedReason : Option String) : Prop :=
  (status = .complete ∧ failedReason = none) ∨ (status = .failed ∧ failedReason.isSome)

/-- What a discipline needs for the judgment jobs to be safe. -/
structure Suits (D : JudgmentDiscipline T) : Prop where
  params : ∀ r r', D.Rel r r' → r'.generationParams = r.generationParams
  calibrated : ∀ r c, D.Rel r { r with calibration := c } ∧ D.Rel { r with calibration := c } r ∧
    (D.Good r → D.Good { r with calibration := c })
  flushed : ∀ t w k loaded status failedReason v, TerminalUpdate status failedReason →
    D.cond t w (.row (.update k (setStatus status failedReason loaded))) →
    w.table.visible t k = some v → D.Rel loaded v → D.Good v →
    D.Good (setStatus status failedReason loaded v) ∧
      D.Rel v (setStatus status failedReason loaded v)
  inserted : ∀ params, D.Good { status := .generating, generationParams := params }
  touched : ∀ job worker k, job.delivery = some (worker, k) → D.touches job k
  linked : ∀ s s' queue, D.Evolves s s' → D.Link s queue → D.Link s' queue
  enqueued : ∀ t w caller k row, w.table.committed k = some row →
    D.cond t w (.outside (.enqueue caller (chosenWorker caller row) k)) →
    D.Link w.table w.outside →
    D.Link w.table (w.outside ++ [(chosenWorker caller row, k)]) ∧
      D.Grows w.outside (w.outside ++ [(chosenWorker caller row, k)])

/-- What a session knows about the list it works on: it holds no other row, its
version of the list replaces a committed one, and its loaded object is a former
version of the row. -/
structure OnList (D : JudgmentDiscipline T) (t : T) (k : ℕ) (w : Beside T ℕ JudgmentList Queue) :
    Prop where
  others : ∀ k', k' ≠ k → w.table.held t k' = none
  based : ∀ v, w.table.visible t k = some v → ∃ v₀, w.table.committed k = some v₀ ∧ D.Rel v₀ v
  loaded : ∀ l, w.table.identity t k = some l → ∃ v, w.table.visible t k = some v ∧ D.Rel l v

variable {D : JudgmentDiscipline T} {t : T} {k : ℕ} {w w' : Beside T ℕ JudgmentList Queue}

/-- What a session sees of its list evolves while the other sessions act. -/
theorem visible_evolves (hrely : D.contract.rely t w w') {v : JudgmentList}
    (hv : w.table.visible t k = some v) :
    ∃ v', w'.table.visible t k = some v' ∧ D.Rel v v' ∧
      (w.table.held t k ≠ none → v' = v) := by
  obtain ⟨hframe, hevolves, -⟩ := hrely
  by_cases hheld : w.table.held t k = none
  · rw [visible_of_not_held hheld] at hv
    obtain ⟨v', hv', hrel⟩ := hevolves k v hv
    refine ⟨v', ?_, hrel, fun h => absurd hheld h⟩
    rw [visible_of_not_held ((hframe.held k).trans hheld), hv']
  · exact ⟨v, (hframe.visible hheld).trans hv, D.rel_refl v, fun _ => rfl⟩

/-- A row that a session sees comes from one that it saw before. -/
theorem visible_of_rely (hrely : D.contract.rely t w w') {v' : JudgmentList}
    (hv' : w'.table.visible t k = some v') :
    w.table.visible t k = some v' ∨ w'.table.committed k = some v' := by
  obtain ⟨hframe, -, -⟩ := hrely
  by_cases hheld : w.table.held t k = none
  · exact Or.inr (by rwa [visible_of_not_held ((hframe.held k).trans hheld)] at hv')
  · exact Or.inl ((hframe.visible hheld).symm.trans hv')

theorem OnList.rely (h : OnList D t k w) (hrely : D.contract.rely t w w') : OnList D t k w' where
  others k' hk' := (hrely.1.held k').trans (h.others k' hk')
  based v' hv' := by
    rcases visible_of_rely hrely hv' with hv | hcommitted
    · obtain ⟨v₀, hv₀, hrel⟩ := h.based v' hv
      by_cases hheld : w.table.held t k = none
      · rw [visible_of_not_held ((hrely.1.held k).trans hheld)] at hv'
        exact ⟨v', hv', D.rel_refl v'⟩
      · exact ⟨v₀, (hrely.1.committed k hheld).trans hv₀, hrel⟩
    · exact ⟨v', hcommitted, D.rel_refl v'⟩
  loaded l hl := by
    rw [hrely.1.identity] at hl
    obtain ⟨v, hv, hrel⟩ := h.loaded l hl
    obtain ⟨v', hv', hrel', -⟩ := visible_evolves hrely hv
    exact ⟨v', hv', D.rel_trans _ _ _ hrel hrel'⟩

/-- A session that has just begun knows nothing that could become wrong. -/
theorem onList_of_fresh (hclean : w.table.Clean t) (hid : ∀ k, w.table.identity t k = none)
    (k : ℕ) : OnList D t k w where
  others k' _ := hclean k'
  based v hv := ⟨v, by rwa [hclean.visible] at hv, D.rel_refl v⟩
  loaded l hl := by simp [hid k] at hl

/-! ## Statements of a session on its list -/

variable {code : Job → Db Unit} {j : Job} {α β : Type}

/-- `p` is safe for the discipline `D`. -/
abbrev JudgmentSafe (D : JudgmentDiscipline T) (code : Job → Db Unit) (t : T) (j : Job)
    (Q : α → Beside T ℕ JudgmentList Queue → Prop)
    (E : JudgmentError → Beside T ℕ JudgmentList Queue → Prop) (p : Db α)
    (w : Beside T ℕ JudgmentList Queue) : Prop :=
  Safe (besideSystem code Job.admitted execQueue) D.contract t j Q E p w

/-- Other rows are not held: what is left of `OnList` when the list was written. -/
def HoldsOnly (t : T) (k : ℕ) (w : Beside T ℕ JudgmentList Queue) : Prop :=
  ∀ k', k' ≠ k → w.table.held t k' = none

theorem HoldsOnly.rely (h : HoldsOnly t k w) (hrely : D.contract.rely t w w') : HoldsOnly t k w' :=
  fun k' hk' => (hrely.1.held k').trans (h k' hk')

/-- Every version that a session sees is good. -/
theorem good_of_visible (hinv : D.contract.inv w) {v : JudgmentList}
    (hv : w.table.visible t k = some v) : D.Good v := by
  unfold Store.visible at hv
  split at hv
  · rename_i r hheld
    exact Option.some.inj hv ▸ hinv.1.written t k r hheld
  · exact hinv.1.committed k v hv

/-- An allowed statement keeps the table and the queue together. -/
theorem link_exec (hD : Suits D) (hinv : D.contract.inv w) {o : RowOp ℕ JudgmentList} {a : o.Res}
    {s' : Store T ℕ JudgmentList} (hexec : exec t w.table o = some (s', a))
    (hallowed : w.table.Allowed D.Rel D.Good t o) : D.Link s' w.outside := by
  refine hD.linked _ _ _ (fun k r hr => ?_) hinv.2
  obtain ⟨r', hr', rfl | hrel⟩ := (hinv.1.exec hallowed hexec).2 k r hr
  · exact ⟨r', hr', D.rel_refl r'⟩
  · exact ⟨r', hr', hrel⟩

variable {Q : α → Beside T ℕ JudgmentList Queue → Prop}
variable {E : JudgmentError → Beside T ℕ JudgmentList Queue → Prop}

/-- Reading the list. -/
theorem safe_getJudgmentList (hD : Suits D) (h : OnList D t k w) :
    JudgmentSafe D code t j (fun a w => OnList D t k w ∧
      ∀ l, a = some l → w.table.identity t k = some l) E (getJudgmentList k) w := by
  refine Discipline.safe_row (OnList D t k) h (fun _ _ hrely h => h.rely hrely)
    (fun _ _ _ _ => trivial) (fun w s' a _ hinv _ hexec => link_exec hD hinv hexec trivial)
    (fun ho => by cases ho) fun w s' a h _ _ hexec => ?_
  · obtain ⟨rfl, rfl⟩ := Prod.mk.inj (Option.some.inj hexec)
    refine ⟨⟨fun k' hk' => by simpa using h.others k' hk', fun v hv => ?_, fun l hl => ?_⟩,
      fun l hl => identity_load hl⟩
    · obtain ⟨v₀, hv₀, hrel⟩ := h.based v (by simpa using hv)
      exact ⟨v₀, by simpa using hv₀, hrel⟩
    · -- the object is the one loaded before, or the row as it is seen now
      cases hv : w.table.visible t k with
      | none =>
        have hobject : w.table.object t k = none := by simp [object, hv]
        simp only [load, hobject] at hl
        obtain ⟨v, hv', -⟩ := h.loaded l hl
        simp [hv] at hv'
      | some v =>
        have hobject : w.table.object t k = some ((w.table.identity t k).getD v) := by
          simp [object, hv]
        dsimp only at hl
        rw [identity_load hobject] at hl
        obtain rfl := Option.some.inj hl
        refine ⟨v, by simpa using hv, ?_⟩
        cases hid : w.table.identity t k with
        | none => exact D.rel_refl v
        | some l =>
          obtain ⟨v', hv', hrel⟩ := h.loaded l hid
          obtain rfl : v' = v := Option.some.inj (hv'.symm.trans hv)
          exact hrel

/-- The flush of a change that the discipline allows, of the loaded object. -/
theorem safe_flush (hD : Suits D) {loaded : JudgmentList}
    {change : JudgmentList → JudgmentList → JudgmentList} {R : Beside T ℕ JudgmentList Queue → Prop}
    (h : OnList D t k w) (hloaded : w.table.identity t k = some loaded)
    (hallowed : ∀ w v, D.cond t w (.row (.update k (change loaded))) →
      w.table.visible t k = some v → D.Rel loaded v → D.Good v →
      D.Good (change loaded v) ∧ D.Rel v (change loaded v))
    (hunchanged : ∀ w, OnList D t k w → R w)
    (hwritten : ∀ w v, OnList D t k w → w.table.visible t k = some v → D.Rel loaded v →
      D.Rel v (change loaded v) →
      R ⟨(w.table.write t k (change loaded v)).remember t k (some (change loaded loaded)),
        w.outside⟩) :
    JudgmentSafe D code t j (fun _ => R) E (flush k loaded change) w := by
  unfold flush
  split
  · exact hunchanged w h
  · have hchange : ∀ (w : Beside T ℕ JudgmentList Queue) v, OnList D t k w →
        w.table.identity t k = some loaded → D.contract.inv w →
        D.cond t w (.row (.update k (change loaded))) → w.table.visible t k = some v →
        D.Rel loaded v ∧ D.Good (change loaded v) ∧ D.Rel v (change loaded v) := by
      intro w v h hloaded hinv hcond hv
      obtain ⟨v', hv', hrel⟩ := h.loaded loaded hloaded
      obtain rfl : v' = v := Option.some.inj (hv'.symm.trans hv)
      exact ⟨hrel, hallowed w v' hcond hv hrel (good_of_visible hinv hv)⟩
    have hallow : ∀ w : Beside T ℕ JudgmentList Queue, OnList D t k w →
        w.table.identity t k = some loaded → D.contract.inv w →
        D.cond t w (.row (.update k (change loaded))) →
        w.table.Allowed D.Rel D.Good t (.update k (change loaded)) := by
      intro w h hloaded hinv hcond v hv
      obtain ⟨-, hgood, hrel⟩ := hchange w v h hloaded hinv hcond hv
      refine ⟨hgood, fun r₀ hr₀ => ?_⟩
      obtain ⟨v₀, hv₀, hbased⟩ := h.based v hv
      obtain rfl : v₀ = r₀ := Option.some.inj (hv₀.symm.trans hr₀)
      exact D.rel_trans _ _ _ hbased hrel
    refine Discipline.safe_row
      (fun w => OnList D t k w ∧ w.table.identity t k = some loaded) ⟨h, hloaded⟩
      (fun _ _ hrely h => ⟨h.1.rely hrely, by rw [hrely.1.identity]; exact h.2⟩)
      (fun w h hinv hcond => hallow w h.1 h.2 hinv hcond)
      (fun w s' a h hinv hcond hexec =>
        link_exec hD hinv hexec (hallow w h.1 h.2 hinv hcond))
      (fun ho => by cases ho) fun w s' a h hinv hcond hexec => ?_
    · obtain ⟨hnone, -⟩ | ⟨v, hv, -, rfl⟩ := exec_update hexec
      · obtain ⟨v, hv, -⟩ := h.1.loaded loaded h.2
        simp [hnone] at hv
      · obtain ⟨hrel, -, hwrite⟩ := hchange w v h.1 h.2 hinv hcond hv
        rw [h.2]
        exact hwritten w v h.1 hv hrel hwrite

/-- `update_judgment_list_status`, as the workers call it. -/
theorem safe_updateJudgmentListStatus (hD : Suits D) {status : JudgmentListStatus}
    {failedReason : Option String} (hterminal : TerminalUpdate status failedReason)
    (h : OnList D t k w) :
    JudgmentSafe D code t j (fun _ => HoldsOnly t k) (fun _ => HoldsOnly t k)
      (updateJudgmentListStatus k status failedReason) w := by
  refine Safe.seq (safe_getJudgmentList hD h) ?_
  rintro a w ⟨h, hloaded⟩
  cases a with
  | none => exact h.others
  | some loaded =>
    refine safe_flush hD h (hloaded loaded rfl) (fun w v hcond hv hrel hgood =>
      hD.flushed t w k loaded status failedReason v hterminal hcond hv hrel hgood)
      (fun w h => h.others) fun w v h _ _ _ k' hk' => ?_
    rw [held_remember, held_write_of_key_ne hk']
    exact h.others k' hk'

/-- `update_judgment_list_calibration`. -/
theorem safe_updateJudgmentListCalibration (hD : Suits D) (calibration : String)
    (h : OnList D t k w) :
    JudgmentSafe D code t j (fun _ => OnList D t k) (fun _ => HoldsOnly t k)
      (updateJudgmentListCalibration k calibration) w := by
  refine Safe.seq (safe_getJudgmentList hD h) ?_
  rintro a w ⟨h, hloaded⟩
  cases a with
  | none => exact h.others
  | some loaded =>
    refine safe_flush hD h (hloaded loaded rfl) (fun w v _ _ _ hgood => ?_) (fun w h => h)
      fun w v h hv hrel hwrite => ⟨fun k' hk' => ?_, fun v' hv' => ?_, fun l hl => ?_⟩
    · obtain ⟨hrel, -, hkeep⟩ := hD.calibrated v
        (if loaded.calibration = some calibration then v.calibration else some calibration)
      exact ⟨hkeep hgood, hrel⟩
    · rw [held_remember, held_write_of_key_ne hk']
      exact h.others k' hk'
    · rw [visible_remember, visible_of_written held_write] at hv'
      obtain rfl := Option.some.inj hv'
      obtain ⟨v₀, hv₀, hbased⟩ := h.based v hv
      exact ⟨v₀, hv₀, D.rel_trans _ _ _ hbased hwrite⟩
    · rw [identity_remember] at hl
      obtain rfl := Option.some.inj hl
      refine ⟨setCalibration calibration loaded v, ?_, ?_⟩
      · rw [visible_remember, visible_of_written held_write]
      · have hback :=
          (hD.calibrated loaded (setCalibration calibration loaded loaded).calibration).2.1
        exact D.rel_trans _ _ _ hback (D.rel_trans _ _ _ hrel hwrite)

/-- A commit of a delivery publishes changes of its own list only. -/
theorem safe_commit (hD : Suits D) {worker : Worker} (hj : j.delivery = some (worker, k))
    (h : HoldsOnly t k w) :
    JudgmentSafe D code t j (fun _ w => w.table.Clean t) E commit w := by
  refine Discipline.safe_row (HoldsOnly t k) h (fun _ _ hrely h => h.rely hrely)
    (fun _ _ _ _ => trivial) (fun w s' a _ hinv _ hexec => link_exec hD hinv hexec trivial)
    (fun _ w h k' r r₀ hr _ => ?_) fun w s' a _ _ _ hexec => ?_
  · by_cases hk : k' = k
    · exact hk ▸ hD.touched j worker k hj
    · simp [h k' hk] at hr
  · obtain ⟨rfl, -⟩ := Prod.mk.inj (Option.some.inj hexec)
    exact fun _ => held_commit

/-- A commit in a session that has changed nothing in the table. -/
theorem safe_commitFresh (hD : Suits D) (h : Fresh t w) :
    JudgmentSafe D code t j (fun _ => Fresh t) E commit w := by
  refine Discipline.safe_row (Fresh t) h (fun _ _ hrely h => Discipline.fresh_rely h hrely)
    (fun _ _ _ _ => trivial) (fun w s' a _ hinv _ hexec => link_exec hD hinv hexec trivial)
    (fun _ w h k' r r₀ hr _ => by simp [h.1 k'] at hr) fun w s' a h _ _ hexec => ?_
  obtain ⟨rfl, -⟩ := Prod.mk.inj (Option.some.inj hexec)
  exact ⟨fun _ => held_commit, h.2⟩

/-- A block whose result carries no knowledge. -/
theorem safe_block {body : Db α}
    (hbody : JudgmentSafe D code t j (fun _ _ => True) (fun _ _ => True) body w) :
    JudgmentSafe D code t j (fun _ => Fresh t) (fun _ => Fresh t) (inSession body) w :=
  (Discipline.safe_inSession hbody (fun _ _ _ _ h => h) fun _ _ h => h).post fun _ _ h => h.1

end RelyLoop.Judgments

/-! ## The workers -/

namespace RelyLoop.Judgments

open Concurrency Store

variable {T : Type} [DecidableEq T]
variable {D : JudgmentDiscipline T} {t : T} {k : ℕ} {w : Beside T ℕ JudgmentList Queue}
variable {code : Job → Db Unit} {j : Job} {worker : Worker}

theorem safe_failJudgmentList (hD : Suits D) (hj : j.delivery = some (worker, k))
    (failedReason : String) (h : OnList D t k w) :
    JudgmentSafe D code t j (fun _ _ => True) (fun _ _ => True)
      (failJudgmentList k failedReason) w := by
  have hterminal : TerminalUpdate .failed (some failedReason) := Or.inr ⟨rfl, rfl⟩
  refine Safe.bind ((safe_updateJudgmentListStatus hD hterminal h).mono (fun _ w h => ?_)
    fun _ _ _ => trivial)
  exact (safe_commit hD hj h).post fun _ _ _ => trivial

theorem safe_completeJudgmentList (hD : Suits D) (hj : j.delivery = some (worker, k))
    (h : OnList D t k w) :
    JudgmentSafe D code t j (fun _ _ => True) (fun _ _ => True) (completeJudgmentList k) w := by
  have hterminal : TerminalUpdate .complete none := Or.inl ⟨rfl, rfl⟩
  refine Safe.bind ((safe_updateJudgmentListStatus hD hterminal h).mono (fun _ w h => ?_)
    fun _ _ _ => trivial)
  exact (safe_commit hD hj h).post fun _ _ _ => trivial

theorem safe_writeCalibrationAndComplete (hD : Suits D) (hj : j.delivery = some (worker, k))
    (calibration : String) (h : OnList D t k w) :
    JudgmentSafe D code t j (fun _ _ => True) (fun _ _ => True)
      (writeCalibrationAndComplete k calibration) w :=
  Safe.bind ((safe_updateJudgmentListCalibration hD calibration h).mono
    (fun _ _ h => safe_completeJudgmentList hD hj h) fun _ _ _ => trivial)

/-- Failing a list in a session of its own. -/
theorem safe_failInSession (hD : Suits D) (hj : j.delivery = some (worker, k))
    (failedReason : String) (h : Fresh t w) :
    JudgmentSafe D code t j (fun _ _ => True) (fun _ => Fresh t)
      (inSession (failJudgmentList k failedReason)) w :=
  (safe_block (safe_failJudgmentList hD hj failedReason
    (onList_of_fresh h.1 h.2 k))).post fun _ _ _ => trivial

/-- An exception that a run meets. -/
theorem safe_raiseIfAny (raised : Option String) (h : Fresh t w) :
    JudgmentSafe D code t j (fun _ => Fresh t) (fun _ => Fresh t) (raiseIfAny raised) w := by
  cases raised <;> exact h

/-- The list is read first, and nothing is known about it before. -/
theorem safe_entry (hD : Suits D) (raised : Option String)
    {next : Option JudgmentList → Db Bool} (h : Fresh t w)
    (hnext : ∀ a w, OnList D t k w →
      JudgmentSafe D code t j (fun _ _ => True) (fun _ _ => True) (next a) w) :
    JudgmentSafe D code t j (fun _ _ => True) (fun _ _ => True)
      ((raiseIfAny raised).bind fun _ => (getJudgmentList k).bind next) w := by
  refine Safe.bind ((safe_raiseIfAny raised h).mono (fun _ w h => ?_) fun _ _ _ => trivial)
  exact Safe.bind ((safe_getJudgmentList (E := fun _ _ => True) hD
    (onList_of_fresh h.1 h.2 k)).mono (fun a w h => hnext a w h.1) fun _ _ _ => trivial)

theorem safe_llmEntry (hD : Suits D) (hj : j.delivery = some (worker, k)) (run : LlmRun)
    (h : Fresh t w) :
    JudgmentSafe D code t j (fun _ _ => True) (fun _ _ => True) (llmEntry k run) w := by
  refine safe_entry hD run.entryRaises h fun a w h => ?_
  have hfail : ∀ reason, JudgmentSafe D code t j (fun _ _ => True) (fun _ _ => True)
      ((failJudgmentList k reason).bind fun _ => pure false) w := fun reason =>
    Safe.seq (safe_failJudgmentList hD hj reason h) fun _ _ h => h
  cases a with
  | none => trivial
  | some judgmentList =>
    dsimp only
    split
    · trivial
    split
    · exact hfail _
    split
    · exact hfail _
    split
    · exact Safe.seq (safe_completeJudgmentList hD hj h) fun _ _ h => h
    · trivial

theorem safe_llmJudge (hD : Suits D) (hj : j.delivery = some (worker, k)) (run : LlmRun)
    (h : Fresh t w) :
    JudgmentSafe D code t j (fun _ _ => True) (fun _ => Fresh t) (llmJudge k run) w := by
  unfold llmJudge
  split
  · exact safe_failInSession hD hj _ h
  split
  · exact safe_failInSession hD hj _ h
  refine Safe.seq (safe_raiseIfAny run.setupRaises h) fun _ w h => ?_
  split
  · exact h
  · exact safe_failInSession hD hj _ h
  split
  · exact (safe_block (safe_completeJudgmentList hD hj
      (onList_of_fresh h.1 h.2 k))).post fun _ _ _ => trivial
  · exact safe_failInSession hD hj _ h

theorem safe_recordUnexpected (hD : Suits D) (hj : j.delivery = some (worker, k))
    (e : JudgmentError) (h : Fresh t w) :
    JudgmentSafe D code t j (fun _ _ => True) (fun _ _ => True) (recordUnexpected k e) w :=
  Safe.handle ((safe_failInSession hD hj _ h).mono (fun _ _ _ => trivial) fun _ _ _ => trivial)

theorem safe_generateJudgmentsLlm (hD : Suits D) (hj : j.delivery = some (worker, k))
    (run : LlmRun) (h : Fresh t w) :
    JudgmentSafe D code t j (fun _ _ => True) (fun _ _ => True) (generateJudgmentsLlm k run) w := by
  refine Safe.handle (Safe.bind ((safe_block (safe_llmEntry hD hj run h)).mono
    (fun goOn w h => ?_) fun e w h => safe_recordUnexpected hD hj e h))
  cases goOn with
  | false => trivial
  | true =>
    exact (safe_llmJudge hD hj run h).mono (fun _ _ _ => trivial)
      fun e w h => safe_recordUnexpected hD hj e h

theorem safe_ubiEntry (hD : Suits D) (hj : j.delivery = some (worker, k)) (run : UbiRun)
    (h : Fresh t w) :
    JudgmentSafe D code t j (fun _ _ => True) (fun _ _ => True) (ubiEntry k run) w := by
  refine safe_entry hD run.entryRaises h fun a w h => ?_
  have hfail : ∀ reason, JudgmentSafe D code t j (fun _ _ => True) (fun _ _ => True)
      ((failJudgmentList k reason).bind fun _ => pure false) w := fun reason =>
    Safe.seq (safe_failJudgmentList hD hj reason h) fun _ _ h => h
  cases a with
  | none => trivial
  | some judgmentList =>
    dsimp only
    split
    · trivial
    split
    · exact hfail _
    split
    · exact hfail _
    · trivial

theorem safe_ubiJudge (hD : Suits D) (hj : j.delivery = some (worker, k)) (run : UbiRun)
    (h : Fresh t w) :
    JudgmentSafe D code t j (fun _ _ => True) (fun _ => Fresh t) (ubiJudge k run) w := by
  have hcalibrate : ∀ w, Fresh t w → JudgmentSafe D code t j (fun _ _ => True) (fun _ _ => True)
      (writeCalibrationAndComplete k run.calibration) w := fun w h =>
    safe_writeCalibrationAndComplete hD hj run.calibration (onList_of_fresh h.1 h.2 k)
  unfold ubiJudge
  cases run.outcome with
  | notEnabled => exact safe_failInSession hD hj _ h
  | noFeatures => exact safe_failInSession hD hj _ h
  | noScopedFeatures =>
    exact (safe_block (hcalibrate w h)).post fun _ _ _ => trivial
  | budgetExceeded => exact safe_failInSession hD hj _ h
  | unknownModelPricing => exact safe_failInSession hD hj _ h
  | raises typeName => exact h
  | rated =>
    have hcommit : JudgmentSafe D code t j (fun _ => Fresh t) (fun _ _ => True) commit w :=
      safe_commitFresh hD h
    have hbody := Safe.seq hcommit fun _ w h => hcalibrate w h
    exact (safe_block hbody).post fun _ _ _ => trivial

theorem safe_generateJudgmentsFromUbi (hD : Suits D) (hj : j.delivery = some (worker, k))
    (run : UbiRun) (h : Fresh t w) :
    JudgmentSafe D code t j (fun _ _ => True) (fun _ _ => True)
      (generateJudgmentsFromUbi k run) w := by
  refine Safe.handle (Safe.bind ((safe_block (safe_ubiEntry hD hj run h)).mono
    (fun goOn w h => ?_) fun e w h => safe_recordUnexpected hD hj e h))
  cases goOn with
  | false => trivial
  | true =>
    exact (safe_ubiJudge hD hj run h).mono (fun _ _ _ => trivial)
      fun e w h => safe_recordUnexpected hD hj e h

end RelyLoop.Judgments
