import Mathlib.Algebra.Order.Field.Rat
import Mathlib.Data.List.Nodup
import Mathlib.Data.List.Sort
import Mathlib.Data.Rat.Cast.Order
import Mathlib.Tactic.Positivity

/-!
# Measures of a ranking

The effectiveness of a ranked list against graded judgments: precision, recall, average
precision, reciprocal rank and discounted gain. Two lists agree in a measure under all judgments
exactly when they agree in the places, or in the members, that the measure looks at.
-/

namespace RelyLoop.Ranking

variable {δ : Type*}

/-- Graded judgments: the gain of each document, and the documents that are judged. -/
structure Judged (δ : Type*) where
  gain : δ → ℕ
  judged : List δ

namespace Judged

variable (j : Judged δ)

/-- A document with a positive gain is relevant. -/
def relevant (d : δ) : Bool := 0 < j.gain d

/-- The number of relevant documents. -/
def relevantCount : ℕ := j.judged.countP j.relevant

/-- The gains in the best order. -/
def idealGains : List ℕ := (j.judged.map j.gain).insertionSort (· ≥ ·)

end Judged

/-! ## Measures -/

/-- The weight of a relevant document by its rank and the number of relevant ones before it. -/
abbrev Weight := ℕ → ℕ → ℚ

/-- The weights of the relevant documents of a list, summed up. -/
def weightSum (w : Weight) (j : Judged δ) (rank hits : ℕ) : List δ → ℚ
  | [] => 0
  | d :: ds =>
    if j.relevant d then w rank hits + weightSum w j (rank + 1) (hits + 1) ds
    else weightSum w j (rank + 1) hits ds

/-- Average precision, on the list up to its cut. -/
def averagePrecision (j : Judged δ) (ds : List δ) : ℚ :=
  weightSum (fun rank hits => (hits + 1) / (rank + 1)) j 0 0 ds / j.relevantCount

/-- Reciprocal rank. -/
def reciprocalRank (j : Judged δ) (ds : List δ) : ℚ :=
  weightSum (fun rank hits => if hits = 0 then 1 / (rank + 1) else 0) j 0 0 ds

/-- The gains of a list, discounted by rank. -/
def discountedGain (discount : ℕ → ℚ) (rank : ℕ) : List ℕ → ℚ
  | [] => 0
  | g :: gs => g * discount rank + discountedGain discount (rank + 1) gs

/-- Discounted gain, normalized by that of the best order with the same cut. -/
def normalizedGain (discount : ℕ → ℚ) (k : ℕ) (j : Judged δ) (ds : List δ) : ℚ :=
  discountedGain discount 0 ((ds.take k).map j.gain) /
    discountedGain discount 0 (j.idealGains.take k)

/-- Precision at `k`. -/
def precisionAt (k : ℕ) (j : Judged δ) (ds : List δ) : ℚ := (ds.take k).countP j.relevant / k

/-- Recall at `k`. -/
def recallAt (k : ℕ) (j : Judged δ) (ds : List δ) : ℚ :=
  (ds.take k).countP j.relevant / j.relevantCount

/-! ## One relevant document -/

variable [DecidableEq δ] {ds es : List δ} {d : δ} {k : ℕ}

/-- One document is judged and has gain one. -/
def only (d : δ) : Judged δ := ⟨fun e => if e = d then 1 else 0, [d]⟩

@[simp] theorem relevant_only (d e : δ) : (only d).relevant e = decide (e = d) := by
  by_cases h : e = d <;> simp [Judged.relevant, only, h]

@[simp] theorem relevantCount_only (d : δ) : (only d).relevantCount = 1 := by
  simp [Judged.relevantCount, only, Judged.relevant]

@[simp] theorem idealGains_only (d : δ) : (only d).idealGains = [1] := by
  simp [Judged.idealGains, only]

/-- A value that depends on the place of one document. -/
def placeValue (f : ℕ → ℚ) (ds : List δ) (d : δ) : ℚ := if d ∈ ds then f (ds.idxOf d) else 0

theorem weightSum_only_of_notMem (w : Weight) {rank hits : ℕ} (h : d ∉ ds) :
    weightSum w (only d) rank hits ds = 0 := by
  induction ds generalizing rank with
  | nil => rfl
  | cons e es ih =>
    obtain ⟨hne, hrest⟩ : d ≠ e ∧ d ∉ es := by simpa using h
    rw [weightSum, relevant_only, if_neg (by simpa using hne.symm)]
    exact ih hrest

theorem weightSum_only (w : Weight) {rank : ℕ} (hds : ds.Nodup) :
    weightSum w (only d) rank 0 ds = placeValue (fun i => w (rank + i) 0) ds d := by
  induction ds generalizing rank with
  | nil => rfl
  | cons e es ih =>
    obtain ⟨hfirst, hrest⟩ := List.nodup_cons.mp hds
    by_cases heq : e = d
    · subst heq
      rw [weightSum, relevant_only, if_pos (by simp), weightSum_only_of_notMem w hfirst]
      simp [placeValue]
    · rw [weightSum, relevant_only, if_neg (by simpa using heq), ih hrest]
      have hidx : (e :: es).idxOf d = es.idxOf d + 1 := List.idxOf_cons_ne es heq
      simp only [placeValue, List.mem_cons, hidx, Ne.symm heq, false_or]
      simp only [add_assoc, add_comm 1]

theorem discountedGain_only (discount : ℕ → ℚ) {rank : ℕ} (hds : ds.Nodup) :
    discountedGain discount rank (ds.map (only d).gain) =
      placeValue (fun i => discount (rank + i)) ds d := by
  induction ds generalizing rank with
  | nil => rfl
  | cons e es ih =>
    obtain ⟨hfirst, hrest⟩ := List.nodup_cons.mp hds
    rw [List.map_cons, discountedGain, ih hrest]
    by_cases heq : e = d
    · subst heq
      simp [only, placeValue, hfirst]
    · have hidx : (e :: es).idxOf d = es.idxOf d + 1 := List.idxOf_cons_ne es heq
      simp only [only, if_neg heq, placeValue, List.mem_cons, hidx, Ne.symm heq, false_or]
      simp [add_assoc, add_comm 1]

/-- Positive values that tell the places apart tell the lists apart. -/
theorem eq_of_placeValue {f : ℕ → ℚ} (hpos : ∀ i, 0 < f i) (hinj : Function.Injective f)
    (hds : ds.Nodup) (hes : es.Nodup) (h : ∀ d, placeValue f ds d = placeValue f es d) :
    ds = es := by
  have hmem : ∀ d, d ∈ ds ↔ d ∈ es := by
    intro d
    have hd := h d
    rw [placeValue, placeValue] at hd
    by_cases hin : d ∈ ds
    · by_cases hin' : d ∈ es
      · simp [hin, hin']
      · rw [if_pos hin, if_neg hin'] at hd
        exact absurd hd (hpos _).ne'
    · by_cases hin' : d ∈ es
      · rw [if_neg hin, if_pos hin'] at hd
        exact absurd hd.symm (hpos _).ne'
      · simp [hin, hin']
  have hplace : ∀ d ∈ ds, ds.idxOf d = es.idxOf d := by
    intro d hd
    have hvalue := h d
    rw [placeValue, placeValue, if_pos hd, if_pos ((hmem d).mp hd)] at hvalue
    exact hinj hvalue
  have hlength : ds.length = es.length :=
    ((List.perm_ext_iff_of_nodup hds hes).mpr hmem).length_eq
  refine List.ext_getElem hlength fun i hi hi' => ?_
  have hidx := hplace ds[i] (List.getElem_mem hi)
  rw [hds.idxOf_getElem] at hidx
  have hlt : es.idxOf ds[i] < es.length := by omega
  have hget := List.getElem_idxOf hlt
  simp only [← hidx] at hget
  exact hget.symm

/-! ## Agreement -/

/-- The rank of a document, counted from one, inverted. -/
theorem invRank_pos (i : ℕ) : (0 : ℚ) < 1 / (i + 1) := by positivity

theorem invRank_injective : Function.Injective fun i : ℕ => (1 : ℚ) / (i + 1) := by
  intro i i' h
  have hinv : ((i : ℚ) + 1) = i' + 1 := by
    dsimp only at h
    rwa [one_div, one_div, inv_inj] at h
  exact_mod_cast add_right_cancel hinv

theorem averagePrecision_only_eq_iff (hds : ds.Nodup) (hes : es.Nodup) :
    (∀ d, averagePrecision (only d) ds = averagePrecision (only d) es) ↔ ds = es := by
  constructor
  · intro h
    refine eq_of_placeValue invRank_pos invRank_injective hds hes fun d => ?_
    have hd := h d
    rw [averagePrecision, averagePrecision, weightSum_only _ hds, weightSum_only _ hes] at hd
    simpa using hd
  · rintro rfl d
    rfl

theorem reciprocalRank_only_eq_iff (hds : ds.Nodup) (hes : es.Nodup) :
    (∀ d, reciprocalRank (only d) ds = reciprocalRank (only d) es) ↔ ds = es := by
  constructor
  · intro h
    refine eq_of_placeValue invRank_pos invRank_injective hds hes fun d => ?_
    have hd := h d
    rw [reciprocalRank, reciprocalRank, weightSum_only _ hds, weightSum_only _ hes] at hd
    simpa using hd
  · rintro rfl d
    rfl

theorem normalizedGain_only_eq_iff {discount : ℕ → ℚ} (hpos : ∀ i, 0 < discount i)
    (hanti : StrictAnti discount) (hk : 0 < k) (hds : ds.Nodup) (hes : es.Nodup) :
    (∀ d, normalizedGain discount k (only d) ds = normalizedGain discount k (only d) es) ↔
      ds.take k = es.take k := by
  constructor
  · intro h
    refine eq_of_placeValue hpos hanti.injective hds.take hes.take fun d => ?_
    have hd := h d
    have hideal : discountedGain discount 0 ((only d).idealGains.take k) = discount 0 := by
      obtain ⟨k, rfl⟩ := Nat.exists_eq_succ_of_ne_zero hk.ne'
      simp [discountedGain]
    rw [normalizedGain, normalizedGain, hideal, discountedGain_only _ hds.take,
      discountedGain_only _ hes.take, div_left_inj' (hpos 0).ne'] at hd
    simpa using hd
  · intro h d
    rw [normalizedGain, normalizedGain, h]

theorem countP_only (hds : ds.Nodup) (d : δ) :
    ds.countP (only d).relevant = if d ∈ ds then 1 else 0 := by
  have hcount : ds.countP (only d).relevant = ds.count d := by
    rw [List.count]
    exact List.countP_congr fun e _ => by simp
  rw [hcount]
  split
  · rename_i hmem
    exact List.count_eq_one_of_mem hds hmem
  · rename_i hmem
    exact List.count_eq_zero_of_not_mem hmem

theorem countP_only_eq_iff (hds : ds.Nodup) (hes : es.Nodup) :
    ds.countP (only d).relevant = es.countP (only d).relevant ↔ (d ∈ ds ↔ d ∈ es) := by
  rw [countP_only hds, countP_only hes]
  by_cases hin : d ∈ ds <;> by_cases hin' : d ∈ es <;> simp [hin, hin']

omit [DecidableEq δ] in
/-- Lists with the same members have equally many relevant ones. -/
theorem countP_relevant_congr (hds : ds.Nodup) (hes : es.Nodup) (h : ∀ d, d ∈ ds ↔ d ∈ es)
    (j : Judged δ) : ds.countP j.relevant = es.countP j.relevant :=
  ((List.perm_ext_iff_of_nodup hds hes).mpr h).countP_eq _

theorem precisionAt_only_eq_iff (hk : 0 < k) (hds : ds.Nodup) (hes : es.Nodup) :
    (∀ d, precisionAt k (only d) ds = precisionAt k (only d) es) ↔
      ∀ d, d ∈ ds.take k ↔ d ∈ es.take k := by
  have hne : (k : ℚ) ≠ 0 := by exact_mod_cast hk.ne'
  refine forall_congr' fun d => ?_
  rw [precisionAt, precisionAt, div_left_inj' hne, Nat.cast_inj, countP_only_eq_iff hds.take hes.take]

theorem recallAt_only_eq_iff (hds : ds.Nodup) (hes : es.Nodup) :
    (∀ d, recallAt k (only d) ds = recallAt k (only d) es) ↔
      ∀ d, d ∈ ds.take k ↔ d ∈ es.take k := by
  refine forall_congr' fun d => ?_
  rw [recallAt, recallAt, relevantCount_only, Nat.cast_one, div_one, div_one, Nat.cast_inj,
    countP_only_eq_iff hds.take hes.take]

omit [DecidableEq δ] in
theorem precisionAt_congr (hds : ds.Nodup) (hes : es.Nodup)
    (h : ∀ d, d ∈ ds.take k ↔ d ∈ es.take k) (j : Judged δ) :
    precisionAt k j ds = precisionAt k j es := by
  rw [precisionAt, precisionAt, countP_relevant_congr hds.take hes.take h j]

omit [DecidableEq δ] in
theorem recallAt_congr (hds : ds.Nodup) (hes : es.Nodup)
    (h : ∀ d, d ∈ ds.take k ↔ d ∈ es.take k) (j : Judged δ) : recallAt k j ds = recallAt k j es := by
  rw [recallAt, recallAt, countP_relevant_congr hds.take hes.take h j]

end RelyLoop.Ranking
