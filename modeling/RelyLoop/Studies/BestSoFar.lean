import RelyLoop.Studies.Convergence

/-!
# Best-so-far curves

The curve that `classify_convergence` reads its verdict from depends neither on the order of the
trials nor on those that it does not use, and the page derives the same curve when it has none.
-/

namespace RelyLoop.Studies

open Python

variable {trials trials' : List Trial} {direction : Direction} {running : Option ℚ}
  {shape : StudyConvergenceShape} {curve : List CurvePoint}

/-! ## The curve of the page -/

/-- The better of `best` and the next metric, as `deriveBestSoFarCurve` compares them. -/
def nextBest (direction : Direction) : Option ℚ → ℚ → ℚ
  | none, v => v
  | some best, v =>
    match direction with
    | .minimize => min best v
    | .maximize => max best v

/-- The loop of `deriveBestSoFarCurve`. -/
def deriveCurve (direction : Direction) : Option ℚ → List Trial → List CurvePoint
  | _, [] => []
  | best, trial :: trials =>
    match trial.primaryMetric with
    | none => deriveCurve direction best trials
    | some v =>
      ⟨trial.optunaTrialNumber, nextBest direction best v⟩ ::
        deriveCurve direction (some (nextBest direction best v)) trials

/-- `deriveBestSoFarCurve`. -/
def deriveBestSoFarCurve (trials : List Trial) (direction : Direction) : List CurvePoint :=
  deriveCurve direction none ((trials.filter fun trial =>
    trial.status == .complete && !trial.isBaseline && trial.primaryMetric.isSome).insertionSort
      fun x y => x.optunaTrialNumber - y.optunaTrialNumber ≤ 0)

theorem nextBest_eq_runningBest (direction : Direction) (best : Option ℚ) (v : ℚ) :
    nextBest direction best v = runningBest direction best v := by
  cases best with
  | none => rfl
  | some best =>
    cases direction with
    | maximize =>
      simp only [nextBest, runningBest, max_def]
      split <;> split <;> linarith
    | minimize =>
      simp only [nextBest, runningBest, min_def]
      split <;> split <;> linarith

theorem deriveCurve_eq_bestSoFarCurve (best : Option ℚ) (trials : List Trial) :
    deriveCurve direction best trials = bestSoFarCurve direction best trials := by
  induction trials generalizing best with
  | nil => rfl
  | cons trial trials ih =>
    rw [deriveCurve, bestSoFarCurve]
    cases trial.primaryMetric with
    | none => exact ih best
    | some v =>
      dsimp only
      rw [nextBest_eq_runningBest, ih]

/-- The page sorts by the difference of the numbers. -/
theorem deriveBestSoFarCurve_eq (trials : List Trial) (direction : Direction) :
    deriveBestSoFarCurve trials direction =
      bestSoFarCurve direction none ((trials.filter usable).insertionSort numberedBefore) := by
  rw [deriveBestSoFarCurve, deriveCurve_eq_bestSoFarCurve]
  congr 1
  apply insertionSort_congr
  intro x _ y _
  unfold numberedBefore
  omega

/-! ## The running extremum -/

/-- A later value of the running extremum is no worse. -/
def NoWorse : Direction → ℚ → ℚ → Prop
  | .maximize, earlier, later => earlier ≤ later
  | .minimize, earlier, later => later ≤ earlier

theorem NoWorse.rfl {value : ℚ} : NoWorse direction value value := by
  cases direction <;> exact le_rfl

theorem NoWorse.trans {x y z : ℚ} (hxy : NoWorse direction x y) (hyz : NoWorse direction y z) :
    NoWorse direction x z := by
  cases direction with
  | maximize => exact le_trans hxy hyz
  | minimize => exact le_trans hyz hxy

/-- The running extremum gets no worse. -/
theorem noWorse_runningBest (direction : Direction) (best metric : ℚ) :
    NoWorse direction best (runningBest direction (some best) metric) := by
  cases direction with
  | maximize =>
    simp only [NoWorse, runningBest]
    split <;> linarith
  | minimize =>
    simp only [NoWorse, runningBest]
    split <;> linarith

/-- No point of the curve is worse than the running extremum before it. -/
theorem noWorse_of_mem_bestSoFarCurve {best : ℚ} {point : CurvePoint}
    (hpoint : point ∈ bestSoFarCurve direction (some best) trials) :
    NoWorse direction best point.bestSoFar := by
  induction trials generalizing best with
  | nil => cases hpoint
  | cons trial trials ih =>
    cases hmetric : trial.primaryMetric with
    | none =>
      simp only [bestSoFarCurve, hmetric] at hpoint
      exact ih hpoint
    | some metric =>
      simp only [bestSoFarCurve, hmetric, List.mem_cons] at hpoint
      have hnext := noWorse_runningBest direction best metric
      rcases hpoint with rfl | hpoint
      · exact hnext
      · exact hnext.trans (ih hpoint)

/-- The curve is monotone in the direction. -/
theorem pairwise_bestSoFarCurve (direction : Direction) (running : Option ℚ)
    (trials : List Trial) : (bestSoFarCurve direction running trials).Pairwise fun p q =>
      NoWorse direction p.bestSoFar q.bestSoFar := by
  induction trials generalizing running with
  | nil => exact List.Pairwise.nil
  | cons trial trials ih =>
    cases hmetric : trial.primaryMetric with
    | none =>
      simp only [bestSoFarCurve, hmetric]
      exact ih running
    | some metric =>
      simp only [bestSoFarCurve, hmetric, List.pairwise_cons]
      exact ⟨fun point hpoint => noWorse_of_mem_bestSoFarCurve hpoint, ih _⟩

/-- Each usable trial has a point. -/
theorem length_bestSoFarCurve (husable : ∀ trial ∈ trials, usable trial = true)
    (running : Option ℚ) : (bestSoFarCurve direction running trials).length = trials.length := by
  induction trials generalizing running with
  | nil => rfl
  | cons trial trials ih =>
    obtain ⟨htrial, htrials⟩ := List.forall_mem_cons.mp husable
    simp only [usable, Bool.and_eq_true, Option.isSome_iff_exists] at htrial
    obtain ⟨-, metric, hmetric⟩ := htrial
    simp only [bestSoFarCurve, hmetric, List.length_cons, ih htrials]

/-! ## The trials that are used -/

/-- Which trials are used, and in what order, depends neither on the order of the trials nor on
those that are not used. -/
theorem sorted_usable_eq (hnumbers : (trials.map Trial.optunaTrialNumber).Nodup)
    {extra : List Trial} (hextra : ∀ trial ∈ extra, usable trial = false)
    (hperm : trials'.Perm (trials ++ extra)) :
    (trials'.filter usable).insertionSort numberedBefore =
      (trials.filter usable).insertionSort numberedBefore := by
  have hfilter : (trials'.filter usable).Perm (trials.filter usable) := by
    have hnone : extra.filter usable = [] := by
      rw [List.filter_eq_nil_iff]
      intro trial htrial
      simp [hextra trial htrial]
    have := hperm.filter usable
    rwa [List.filter_append, hnone, List.append_nil] at this
  have hmem : ∀ trial ∈ (trials.filter usable).insertionSort numberedBefore, trial ∈ trials :=
    fun trial htrial => List.mem_of_mem_filter ((List.mem_insertionSort _).mp htrial)
  apply List.Perm.eq_of_pairwise _ (List.pairwise_insertionSort _ _)
    (List.pairwise_insertionSort _ _)
  · exact (List.perm_insertionSort _ _).trans
      (hfilter.trans (List.perm_insertionSort _ _).symm)
  · intro x y hx hy hxy hyx
    have hx' : x ∈ trials := by
      have := (List.mem_insertionSort _).mp hx
      exact List.mem_of_mem_filter (hfilter.mem_iff.mp this)
    exact List.inj_on_of_nodup_map hnumbers hx' (hmem y hy) (le_antisymm hxy hyx)

/-! ## The verdict -/

/-- `curve[i]`; nothing stands for the `IndexError`. -/
def itemAt (curve : List CurvePoint) (i : ℤ) : Option CurvePoint :=
  if 0 ≤ i then curve[i.toNat]?
  else if -(curve.length : ℤ) ≤ i then curve[(curve.length + i).toNat]?
  else none

theorem itemAt_neg {n : ℕ} (hpos : 0 < n) (hle : n ≤ curve.length) :
    itemAt curve (-n) = curve[curve.length - n]? ∧ (itemAt curve (-n)).isSome = true := by
  have hindex : ((curve.length : ℤ) + -n).toNat = curve.length - n := by omega
  rw [itemAt, if_neg (by omega), if_pos (by omega), hindex, Option.isSome_iff_exists]
  exact ⟨rfl, _, List.getElem?_eq_getElem (by omega)⟩

/-- `improvement_in_window`. -/
def improvementFrom : Direction → ℚ → ℚ → ℚ
  | .maximize, windowStart, windowEnd => windowEnd - windowStart
  | .minimize, windowStart, windowEnd => -(windowEnd - windowStart)

theorem improvementFrom_nonneg {windowStart windowEnd : ℚ}
    (h : NoWorse direction windowStart windowEnd) :
    0 ≤ improvementFrom direction windowStart windowEnd := by
  cases direction with
  | maximize =>
    have hle : windowStart ≤ windowEnd := h
    unfold improvementFrom
    linarith
  | minimize =>
    have hle : windowEnd ≤ windowStart := h
    unfold improvementFrom
    linarith

/-- The curve gets no worse, both ends of the window are points of it, and between them it
improves. -/
structure SoundShape (shape : StudyConvergenceShape) : Prop where
  monotone : shape.bestSoFarCurve.Pairwise fun p q =>
    NoWorse shape.direction p.bestSoFar q.bestSoFar
  indexed : ∃ windowStart windowEnd,
    itemAt shape.bestSoFarCurve (-shape.windowSize) = some windowStart ∧
      itemAt shape.bestSoFarCurve (-1) = some windowEnd ∧
      shape.improvementInWindow =
        improvementFrom shape.direction windowStart.bestSoFar windowEnd.bestSoFar
  improves : 0 ≤ shape.improvementInWindow

/-- A later point of the curve is no worse. -/
theorem noWorse_getElem? (hmonotone : curve.Pairwise fun p q =>
      NoWorse direction p.bestSoFar q.bestSoFar) {i j : ℕ} (hij : i ≤ j) {p q : CurvePoint}
    (hp : curve[i]? = some p) (hq : curve[j]? = some q) :
    NoWorse direction p.bestSoFar q.bestSoFar := by
  obtain ⟨hi, rfl⟩ := List.getElem?_eq_some_iff.mp hp
  obtain ⟨hj, rfl⟩ := List.getElem?_eq_some_iff.mp hq
  rcases Nat.lt_or_eq_of_le hij with hlt | rfl
  · exact List.pairwise_iff_getElem.mp hmonotone i j hi hj hlt
  · exact NoWorse.rfl

/-- What the classifier returns. -/
theorem classifyConvergence_eq_some (h : classifyConvergence trials direction = some shape) :
    convergenceFlatMinComplete ≤ (trials.filter usable).length ∧ shape.direction = direction ∧
      shape.windowSize =
        min convergenceFlatWindow (max 5 ((trials.filter usable).length / 5)) ∧
      shape.bestSoFarCurve = bestSoFarCurve direction none
        ((trials.filter usable).insertionSort numberedBefore) ∧
      shape.improvementInWindow = improvementFrom direction
        ((shape.bestSoFarCurve[shape.bestSoFarCurve.length - shape.windowSize]?.map
          CurvePoint.bestSoFar).getD 0)
        ((shape.bestSoFarCurve.getLast?.map CurvePoint.bestSoFar).getD 0) := by
  unfold classifyConvergence at h
  simp only [List.length_insertionSort] at h
  by_cases hfew : (trials.filter usable).length < convergenceFlatMinComplete
  · rw [if_pos hfew] at h
    cases h
  · rw [if_neg hfew] at h
    obtain rfl := Option.some.inj h
    refine ⟨Nat.le_of_not_lt hfew, rfl, rfl, rfl, ?_⟩
    cases direction <;> rfl

theorem soundShape_of_classifyConvergence
    (h : classifyConvergence trials direction = some shape) : SoundShape shape := by
  obtain ⟨hmin, rfl, hwindow, hcurve, himprovement⟩ := classifyConvergence_eq_some h
  have hmonotone : shape.bestSoFarCurve.Pairwise fun p q =>
      NoWorse shape.direction p.bestSoFar q.bestSoFar := by
    rw [hcurve]
    exact pairwise_bestSoFarCurve _ _ _
  have hlength : shape.bestSoFarCurve.length = (trials.filter usable).length := by
    rw [hcurve, length_bestSoFarCurve, List.length_insertionSort]
    intro trial htrial
    exact List.of_mem_filter ((List.mem_insertionSort _).mp htrial)
  have hfive : 5 ≤ shape.bestSoFarCurve.length := hlength ▸ hmin
  -- The window has at least five points, and no more than the curve.
  have hsize : 0 < shape.windowSize ∧ shape.windowSize ≤ shape.bestSoFarCurve.length := by
    rw [hwindow, hlength]
    unfold convergenceFlatWindow
    omega
  obtain ⟨hstart, hstartSome⟩ := itemAt_neg hsize.1 hsize.2
  have hnonempty : 1 ≤ shape.bestSoFarCurve.length := by omega
  obtain ⟨hend, hendSome⟩ := itemAt_neg Nat.one_pos hnonempty
  obtain ⟨windowStart, hwindowStart⟩ := Option.isSome_iff_exists.mp hstartSome
  obtain ⟨windowEnd, hwindowEnd⟩ := Option.isSome_iff_exists.mp hendSome
  have hchange : shape.improvementInWindow =
      improvementFrom shape.direction windowStart.bestSoFar windowEnd.bestSoFar := by
    rw [himprovement, List.getLast?_eq_getElem?, ← hstart, ← hend, hwindowStart, hwindowEnd]
    rfl
  have hnoWorse : NoWorse shape.direction windowStart.bestSoFar windowEnd.bestSoFar :=
    noWorse_getElem? hmonotone (by omega) (hstart.symm.trans hwindowStart)
      (hend.symm.trans hwindowEnd)
  refine ⟨hmonotone, ⟨windowStart, windowEnd, hwindowStart, hwindowEnd, hchange⟩, ?_⟩
  rw [hchange]
  exact improvementFrom_nonneg hnoWorse

/-- The curve of trials with different numbers is monotone, is only read where it has points, and
is the one that the page derives; what is returned changes neither when the trials are permuted
nor when unusable ones are added. -/
theorem classifyConvergence_stable (trials : List Trial) (direction : Direction)
    (hnumbers : (trials.map Trial.optunaTrialNumber).Nodup) :
    (∀ shape, classifyConvergence trials direction = some shape →
      SoundShape shape ∧ shape.direction = direction ∧
        shape.bestSoFarCurve = deriveBestSoFarCurve trials direction) ∧
    ∀ trials' extra, (∀ trial ∈ extra, usable trial = false) → trials'.Perm (trials ++ extra) →
      classifyConvergence trials' direction = classifyConvergence trials direction := by
  constructor
  · intro shape h
    obtain ⟨-, hdirection, -, hcurve, -⟩ := classifyConvergence_eq_some h
    refine ⟨soundShape_of_classifyConvergence h, hdirection, ?_⟩
    rw [hcurve, deriveBestSoFarCurve_eq]
  · intro trials' extra hextra hperm
    simp only [classifyConvergence, sorted_usable_eq hnumbers hextra hperm]

/-- Six trials that minimize; the fourth is the best. -/
def sixTrials : List Trial :=
  [5, 4, 3, 1, 2, 2].mapIdx fun i metric =>
    { id := i, studyId := 0, optunaTrialNumber := i, status := .complete
      primaryMetric := some metric }

theorem classifyConvergence_stable_sixTrials :
    (∀ shape, classifyConvergence sixTrials .minimize = some shape →
      SoundShape shape ∧ shape.direction = .minimize ∧
        shape.bestSoFarCurve = deriveBestSoFarCurve sixTrials .minimize) ∧
    ∀ trials' extra, (∀ trial ∈ extra, usable trial = false) → trials'.Perm (sixTrials ++ extra) →
      classifyConvergence trials' .minimize = classifyConvergence sixTrials .minimize :=
  classifyConvergence_stable sixTrials .minimize (by decide)

end RelyLoop.Studies
