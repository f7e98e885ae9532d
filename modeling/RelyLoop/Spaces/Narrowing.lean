import RelyLoop.Spaces.Defaults
import RelyLoop.Ranges.Clamp
import Mathlib.Algebra.Order.BigOperators.Group.List
import Mathlib.Algebra.Order.Field.Rat
import Mathlib.Algebra.Order.Round
import Mathlib.Data.Rat.Cast.Order
import Mathlib.Data.Rat.Floor
import Mathlib.Data.String.Basic
import Mathlib.Tactic.Linarith
import Mathlib.Tactic.NormNum

/-!
# Narrowing around a winner

What `narrow_bounds_around_winner` does to each range: it keeps the part of it that lies in a
bracket around the winner's value. The names it reports are those of the ranges it has computed
anew, whether or not the bracket reached beyond both bounds.
-/

namespace RelyLoop.Spaces

open Python Ranges

/-! ## Ranges and brackets -/

theorem IntParam.cast_bounds (p : IntParam) : (p.low : ℚ) ≤ p.high := by
  exact_mod_cast p.bounds

/-- The bounds of a float. -/
def FloatParam.range (p : FloatParam) : NonemptyInterval ℚ := ⟨(p.low, p.high), p.bounds.le⟩

/-- The bounds of an integer. -/
def IntParam.range (p : IntParam) : NonemptyInterval ℚ := ⟨(p.low, p.high), p.cast_bounds⟩

@[simp] theorem FloatParam.fst_range (p : FloatParam) : p.range.fst = p.low := rfl

@[simp] theorem FloatParam.snd_range (p : FloatParam) : p.range.snd = p.high := rfl

@[simp] theorem IntParam.fst_range (p : IntParam) : p.range.fst = p.low := rfl

@[simp] theorem IntParam.snd_range (p : IntParam) : p.range.snd = p.high := rfl

/-- The bounds of a numeric specification. -/
def ParamSpec.range? : ParamSpec → Option (NonemptyInterval ℚ)
  | float p => some p.range
  | int p => some p.range
  | categorical _ | normalizerPipeline _ => none

/-- The value that a specification takes from a winner. -/
def ParamSpec.winnerValue : ParamSpec → Json ℚ → Option ℚ
  | float _, .float q => some q
  | float _, .int i => some i
  | int _, .int i => some i
  | _, _ => none

/-- A specification leaves a range for another one around a value. -/
def ParamSpec.NarrowsTo (spec spec' : ParamSpec) (value : ℚ) : Prop :=
  ∃ range range', spec.range? = some range ∧ spec'.range? = some range' ∧ range' ≤ range ∧
    value ∈ range'

/-- What is documented of the operations: an integer of 53 bits is a float, conversion is monotone,
and rounding moves no end of a bracket past the winner. -/
structure FloatArith.Rounds (A : FloatArith) : Prop where
  ofInt_exact : ∀ i : ℤ, |i| ≤ 2 ^ 53 → A.ofInt i = some (i : ℚ)
  ofInt_mono : ∀ i j : ℤ, ∀ x y : ℚ, i ≤ j → A.ofInt i = some x → A.ofInt j = some y → x ≤ y
  sub_le : ∀ w bracket : ℚ, 0 < bracket → A.sub w (A.mul |w| bracket) ≤ w
  le_add : ∀ w bracket : ℚ, 0 < bracket → w ≤ A.add w (A.mul |w| bracket)
  div_le : ∀ w : ℚ, 0 < w → A.div w A.sqrtTwo ≤ w
  le_mul : ∀ w : ℚ, 0 < w → w ≤ A.mul w A.sqrtTwo

/-- The operations do not round. -/
structure FloatArith.Exact (A : FloatArith) : Prop where
  ofInt : ∀ i : ℤ, A.ofInt i = some (i : ℚ)
  add : ∀ x y : ℚ, A.add x y = x + y
  sub : ∀ x y : ℚ, A.sub x y = x - y
  mul : ∀ x y : ℚ, A.mul x y = x * y
  div : ∀ x y : ℚ, A.div x y = x / y
  one_lt_sqrtTwo : 1 < A.sqrtTwo

theorem exact_exactArith : exactArith.Exact :=
  ⟨fun _ => rfl, fun _ _ => rfl, fun _ _ => rfl, fun _ _ => rfl, fun _ _ => rfl,
    by norm_num [exactArith]⟩

variable {A : FloatArith} {spec spec' : ParamSpec} {winner : Json ℚ} {bracket value : ℚ}

theorem FloatArith.Exact.rounds (hA : A.Exact) : A.Rounds := by
  have hsize : ∀ w bracket : ℚ, 0 < bracket → 0 ≤ |w| * bracket := fun w bracket hbracket =>
    mul_nonneg (abs_nonneg w) hbracket.le
  have hpos : 0 < A.sqrtTwo := zero_lt_one.trans hA.one_lt_sqrtTwo
  constructor
  · exact fun i _ => hA.ofInt i
  · intro i j x y hle hx hy
    rw [hA.ofInt] at hx hy
    obtain rfl := Option.some.inj hx
    obtain rfl := Option.some.inj hy
    exact_mod_cast hle
  · intro w bracket hbracket
    rw [hA.sub, hA.mul]
    exact sub_le_self w (hsize w bracket hbracket)
  · intro w bracket hbracket
    rw [hA.add, hA.mul]
    exact le_add_of_nonneg_right (hsize w bracket hbracket)
  · intro w hw
    rw [hA.div, div_le_iff₀ hpos]
    exact le_mul_of_one_le_right hw.le hA.one_lt_sqrtTwo.le
  · intro w hw
    rw [hA.mul]
    exact le_mul_of_one_le_right hw.le hA.one_lt_sqrtTwo.le

/-- The ends of the bracket of a float, before they are clamped. -/
def FloatParam.ends (A : FloatArith) (p : FloatParam) (value bracket : ℚ) : ℚ × ℚ :=
  (if p.log then A.div value A.sqrtTwo else A.sub value (A.mul |value| bracket),
    if p.log then A.mul value A.sqrtTwo else A.add value (A.mul |value| bracket))

/-- The ends of the bracket of an integer, before they are clamped. -/
def intEnds (A : FloatArith) (value bracket : ℚ) : ℤ × ℤ :=
  (⌊A.sub value (A.mul |value| bracket)⌋, ⌈A.add value (A.mul |value| bracket)⌉)

/-- The ends of the bracket around a value. -/
def ParamSpec.ends (A : FloatArith) (spec : ParamSpec) (value bracket : ℚ) : ℚ × ℚ :=
  match spec with
  | float p => p.ends A value bracket
  | int _ => ((intEnds A value bracket).1, (intEnds A value bracket).2)
  | categorical _ | normalizerPipeline _ => (value, value)

/-- The bracket around a value is computed: the value lies strictly inside the bounds, and for a
float the ends differ. -/
def ParamSpec.Bracketed (A : FloatArith) (spec : ParamSpec) (value bracket : ℚ) : Prop :=
  ∃ range, spec.range? = some range ∧ range.fst < value ∧ value < range.snd ∧
    (spec.isFloat = true → (spec.ends A value bracket).1 < (spec.ends A value bracket).2)

/-- The value lies between the ends. -/
theorem FloatArith.Rounds.ends_mem (hA : A.Rounds) (hbracket : 0 < bracket)
    {range : NonemptyInterval ℚ} (hrange : spec.range? = some range) (hfst : range.fst < value) :
    (spec.ends A value bracket).1 ≤ value ∧ value ≤ (spec.ends A value bracket).2 := by
  cases spec with
  | float p =>
    obtain rfl := Option.some.inj hrange
    simp only [ParamSpec.ends, FloatParam.ends]
    split
    · rename_i hlog
      have hpos : 0 < value := (p.positive hlog).trans hfst
      exact ⟨hA.div_le value hpos, hA.le_mul value hpos⟩
    · exact ⟨hA.sub_le value bracket hbracket, hA.le_add value bracket hbracket⟩
  | int p =>
    constructor
    · exact (Int.floor_le _).trans (hA.sub_le value bracket hbracket)
    · exact (hA.le_add value bracket hbracket).trans (Int.le_ceil _)
  | categorical p => cases hrange
  | normalizerPipeline p => cases hrange

/-! ## One parameter -/

theorem FloatParam.eq_of_range {p p' : FloatParam} (hrange : p'.range = p.range)
    (hlog : p'.log = p.log) : p' = p := by
  have hlow : p'.low = p.low := congrArg (·.fst) hrange
  have hhigh : p'.high = p.high := congrArg (·.snd) hrange
  cases p
  cases p'
  simp_all

theorem IntParam.eq_of_range {p p' : IntParam} (hrange : p'.range = p.range) : p' = p := by
  have hlow : (p'.low : ℚ) = p.low := congrArg (·.fst) hrange
  have hhigh : (p'.high : ℚ) = p.high := congrArg (·.snd) hrange
  rw [Int.cast_inj] at hlow hhigh
  cases p
  cases p'
  simp_all

/-- What a float becomes. -/
theorem narrowFloatBounds_eq_some {p p' : FloatParam}
    (h : narrowFloatBounds A p value bracket = some p') :
    (ParamSpec.float p).Bracketed A value bracket ∧
      Clamped p.range (p.ends A value bracket).1 (p.ends A value bracket).2 p'.range ∧
      p'.log = p.log := by
  unfold narrowFloatBounds at h
  split at h
  · cases h
  · rename_i hinside
    rw [not_or, not_le, not_le] at hinside
    by_cases hlt : max p.low (p.ends A value bracket).1 < min p.high (p.ends A value bracket).2
    · obtain rfl := Option.some.inj ((dif_pos hlt).symm.trans h)
      refine ⟨⟨p.range, rfl, hinside.1, hinside.2, fun _ => ?_⟩, ⟨rfl, rfl⟩, rfl⟩
      exact (le_max_right _ _).trans_lt (hlt.trans_le (min_le_right _ _))
    · cases (dif_neg hlt).symm.trans h

/-- When a float is computed anew. -/
theorem narrowFloatBounds_isSome (hA : A.Rounds) (hbracket : 0 < bracket) {p : FloatParam}
    (h : (ParamSpec.float p).Bracketed A value bracket) :
    ∃ p', narrowFloatBounds A p value bracket = some p' := by
  obtain ⟨range, hrange, hfst, hsnd, hlt⟩ := h
  obtain rfl := Option.some.inj hrange
  have hrange : (ParamSpec.float p).range? = some p.range := rfl
  obtain ⟨hlow, hhigh⟩ := hA.ends_mem hbracket hrange hfst
  have hmax := (max_lt_min_iff_of_mem hfst hsnd hlow hhigh).mpr (hlt rfl)
  unfold narrowFloatBounds
  rw [if_neg (by rw [not_or, not_le, not_le]; exact ⟨hfst, hsnd⟩)]
  exact ⟨_, dif_pos hmax⟩

/-- An integer is narrowed whenever it lies strictly inside its bounds. -/
theorem narrowIntBounds_cases (hA : A.Rounds) (hbracket : 0 < bracket) (p : IntParam) {i : ℤ}
    (habs : A.ofInt |i| = some |(i : ℚ)|) (hofInt : A.ofInt i = some (i : ℚ)) :
    (¬ (ParamSpec.int p).Bracketed A i bracket ∧ narrowIntBounds A p i bracket = .ok none) ∨
      ∃ p', (ParamSpec.int p).Bracketed A i bracket ∧
        narrowIntBounds A p i bracket = .ok (some p') ∧
        Clamped p.range (intEnds A i bracket).1 (intEnds A i bracket).2 p'.range := by
  unfold narrowIntBounds
  split
  · rename_i houtside
    refine Or.inl ⟨?_, rfl⟩
    rintro ⟨range, hrange, hfst, hsnd, -⟩
    obtain rfl := Option.some.inj hrange
    rw [IntParam.fst_range, Int.cast_lt] at hfst
    rw [IntParam.snd_range, Int.cast_lt] at hsnd
    omega
  · rename_i hinside
    rw [not_or, not_le, not_le] at hinside
    obtain ⟨hlow, hhigh⟩ := hinside
    have hfloor : (intEnds A i bracket).1 ≤ i :=
      Int.cast_le.mp ((Int.floor_le _).trans (hA.sub_le (i : ℚ) bracket hbracket))
    have hceil : i ≤ (intEnds A i bracket).2 :=
      Int.cast_le.mp ((hA.le_add (i : ℚ) bracket hbracket).trans (Int.le_ceil _))
    have hle : max p.low (intEnds A i bracket).1 ≤ min p.high (intEnds A i bracket).2 := by
      omega
    right
    rw [habs, hofInt]
    refine ⟨_, ⟨p.range, rfl, ?_, ?_, fun h => by cases h⟩, congrArg Except.ok (dif_pos hle),
      ?_, ?_⟩
    · exact Int.cast_lt.mpr hlow
    · exact Int.cast_lt.mpr hhigh
    · exact Int.cast_max
    · exact Int.cast_min

/-- `spec'` stands for the part of `spec` in the bracket around a value. -/
structure NarrowedBy (A : FloatArith) (spec : ParamSpec) (value bracket : ℚ) (spec' : ParamSpec) :
    Prop where
  bracketed : spec.Bracketed A value bracket
  clamped : ∃ range range', spec.range? = some range ∧ spec'.range? = some range' ∧
    Clamped range (spec.ends A value bracket).1 (spec.ends A value bracket).2 range'
  eq_of_range : spec'.range? = spec.range? → spec' = spec
  size_le : spec'.size ≤ spec.size

/-- The value is a float of the narrowed type: an integer becomes itself. -/
def FitsFloat (A : FloatArith) (winner : Json ℚ) : Prop :=
  ∀ i, winner = .int i → A.ofInt i = some (i : ℚ) ∧ A.ofInt |i| = some |(i : ℚ)|

theorem FloatArith.Exact.fitsFloat (hA : A.Exact) : FitsFloat A winner := by
  intro i _
  rw [hA.ofInt, hA.ofInt, Int.cast_abs]
  exact ⟨rfl, rfl⟩

theorem narrowedBy_float {p p' : FloatParam}
    (h : narrowFloatBounds A p value bracket = some p') :
    NarrowedBy A (.float p) value bracket (.float p') := by
  obtain ⟨hbracketed, hclamped, hlog⟩ := narrowFloatBounds_eq_some h
  refine ⟨hbracketed, ⟨p.range, p'.range, rfl, rfl, hclamped⟩, fun hrange => ?_, le_rfl⟩
  rw [FloatParam.eq_of_range (Option.some.inj hrange) hlog]

theorem narrowedBy_int {p p' : IntParam} (hbracketed : (ParamSpec.int p).Bracketed A value bracket)
    (hclamped : Clamped p.range (intEnds A value bracket).1 (intEnds A value bracket).2 p'.range) :
    NarrowedBy A (.int p) value bracket (.int p') := by
  refine ⟨hbracketed, ⟨p.range, p'.range, rfl, rfl, hclamped⟩, fun hrange => ?_, ?_⟩
  · rw [IntParam.eq_of_range (Option.some.inj hrange)]
  · obtain ⟨hlow, hhigh⟩ := NonemptyInterval.le_def.mp hclamped.le
    rw [IntParam.fst_range, IntParam.fst_range, Int.cast_le] at hlow
    rw [IntParam.snd_range, IntParam.snd_range, Int.cast_le] at hhigh
    simp only [ParamSpec.size]
    omega

/-- One parameter is narrowed exactly when the bracket around its value is computed. -/
theorem narrowSpec_cases (hA : A.Rounds) (hbracket : 0 < bracket) (hfits : FitsFloat A winner)
    (spec : ParamSpec) :
    (narrowSpec A spec winner bracket = .ok none ∧
        ∀ value, spec.winnerValue winner = some value → ¬ spec.Bracketed A value bracket) ∨
      ∃ spec' value, narrowSpec A spec winner bracket = .ok (some spec') ∧
        spec.winnerValue winner = some value ∧ NarrowedBy A spec value bracket spec' := by
  have hfloat : ∀ (p : FloatParam) (q : ℚ), (narrowFloatBounds A p q bracket = none ∧
      ¬ (ParamSpec.float p).Bracketed A q bracket) ∨
        ∃ p', narrowFloatBounds A p q bracket = some p' := by
    intro p q
    cases hnarrow : narrowFloatBounds A p q bracket with
    | some p' => exact Or.inr ⟨p', rfl⟩
    | none =>
      refine Or.inl ⟨rfl, fun hbracketed => ?_⟩
      obtain ⟨p', hp'⟩ := narrowFloatBounds_isSome hA hbracket hbracketed
      cases hnarrow.symm.trans hp'
  have hnone : ∀ {spec : ParamSpec} {winner : Json ℚ}, spec.winnerValue winner = none →
      ∀ value, spec.winnerValue winner = some value → ¬ spec.Bracketed A value bracket := by
    intro spec winner hvalue value hsome
    cases hvalue.symm.trans hsome
  cases spec with
  | categorical p => exact Or.inl ⟨rfl, hnone rfl⟩
  | normalizerPipeline p => exact Or.inl ⟨rfl, hnone rfl⟩
  | float p =>
    cases winner with
    | float q =>
      rcases hfloat p q with ⟨hnarrow, houtside⟩ | ⟨p', hp'⟩
      · refine Or.inl ⟨by simp [narrowSpec, hnarrow], fun value hvalue => ?_⟩
        rwa [← Option.some.inj hvalue]
      · exact Or.inr ⟨.float p', q, by simp [narrowSpec, hp'], rfl, narrowedBy_float hp'⟩
    | int i =>
      have hofInt := (hfits i rfl).1
      rcases hfloat p i with ⟨hnarrow, houtside⟩ | ⟨p', hp'⟩
      · refine Or.inl ⟨by simp [narrowSpec, hofInt, hnarrow], fun value hvalue => ?_⟩
        rwa [← Option.some.inj hvalue]
      · exact Or.inr ⟨.float p', i, by simp [narrowSpec, hofInt, hp'], rfl, narrowedBy_float hp'⟩
    | null => exact Or.inl ⟨rfl, hnone rfl⟩
    | bool b => exact Or.inl ⟨rfl, hnone rfl⟩
    | str s => exact Or.inl ⟨rfl, hnone rfl⟩
    | list items => exact Or.inl ⟨rfl, hnone rfl⟩
    | dict keys values => exact Or.inl ⟨rfl, hnone rfl⟩
  | int p =>
    cases winner with
    | int i =>
      obtain ⟨hofInt, habs⟩ := hfits i rfl
      rcases narrowIntBounds_cases hA hbracket p habs hofInt with
        ⟨houtside, hnarrow⟩ | ⟨p', hbracketed, hnarrow, hclamped⟩
      · refine Or.inl ⟨by simp [narrowSpec, hnarrow, Except.map], fun value hvalue => ?_⟩
        rwa [← Option.some.inj hvalue]
      · exact Or.inr ⟨.int p', i, by simp [narrowSpec, hnarrow, Except.map], rfl,
          narrowedBy_int hbracketed hclamped⟩
    | float q => exact Or.inl ⟨rfl, hnone rfl⟩
    | null => exact Or.inl ⟨rfl, hnone rfl⟩
    | bool b => exact Or.inl ⟨rfl, hnone rfl⟩
    | str s => exact Or.inl ⟨rfl, hnone rfl⟩
    | list items => exact Or.inl ⟨rfl, hnone rfl⟩
    | dict keys values => exact Or.inl ⟨rfl, hnone rfl⟩

theorem NarrowedBy.narrowsTo (hA : A.Rounds) (hbracket : 0 < bracket)
    (h : NarrowedBy A spec value bracket spec') : spec.NarrowsTo spec' value := by
  obtain ⟨range, range', hrange, hrange', hclamped⟩ := h.clamped
  obtain ⟨_, hsame, hfst, hsnd, -⟩ := h.bracketed
  obtain rfl := Option.some.inj (hrange.symm.trans hsame)
  obtain ⟨hlow, hhigh⟩ := hA.ends_mem hbracket hrange hfst
  refine ⟨range, range', hrange, hrange', hclamped.le, ?_⟩
  exact hclamped.mem (NonemptyInterval.mem_def.mpr ⟨hfst.le, hsnd.le⟩) hlow hhigh

/-- A narrowed specification is the one before exactly when its bracket has both bounds. -/
theorem NarrowedBy.eq_iff (h : NarrowedBy A spec value bracket spec')
    {range : NonemptyInterval ℚ} (hrange : spec.range? = some range) :
    spec' = spec ↔
      (spec.ends A value bracket).1 ≤ range.fst ∧ range.snd ≤ (spec.ends A value bracket).2 := by
  obtain ⟨_, range', hsame, hrange', hclamped⟩ := h.clamped
  obtain rfl := Option.some.inj (hrange.symm.trans hsame)
  rw [← hclamped.eq_iff]
  constructor
  · rintro rfl
    exact Option.some.inj (hrange'.symm.trans hrange)
  · rintro rfl
    exact h.eq_of_range (hrange'.trans hrange.symm)

/-! ## The loop over the parameters -/

/-- What the loop puts in the place of a specification. -/
def narrowItem (A : FloatArith) (winningParams : Dict String (Json ℚ)) (bracket : ℚ)
    (name : String) (spec : ParamSpec) : Option ParamSpec :=
  (winningParams.get? name).bind fun winner => ((narrowSpec A spec winner bracket).toOption).join

/-- The parameters that the loop narrows, in the order of the space. -/
def narrowedNames (A : FloatArith) (winningParams : Dict String (Json ℚ)) (bracket : ℚ)
    (entries : List (String × ParamSpec)) : List String :=
  (entries.filter fun e => (narrowItem A winningParams bracket e.1 e.2).isSome).map Prod.fst

variable {winningParams : Dict String (Json ℚ)} {space space' : SearchSpace}
  {narrowed narrowed' : List String} {params params' : Dict String ParamSpec}

/-- The loop replaces each specification in its place. -/
theorem of_narrowParams {before rest : List (String × ParamSpec)}
    (hentries : params.entries = before ++ rest)
    (h : narrowParams A winningParams bracket rest params narrowed = .ok (params', narrowed')) :
    params'.entries = before ++
        rest.map (fun e => (e.1, (narrowItem A winningParams bracket e.1 e.2).getD e.2)) ∧
      narrowed' = narrowed ++ narrowedNames A winningParams bracket rest := by
  induction rest generalizing before params narrowed with
  | nil =>
    obtain ⟨rfl, rfl⟩ := Prod.mk.inj (Except.ok.inj h)
    exact ⟨hentries, (List.append_nil _).symm⟩
  | cons e rest ih =>
    obtain ⟨name, spec⟩ := e
    have hsplit : params.entries = (before ++ [(name, spec)]) ++ rest := by
      rw [hentries, List.append_assoc, List.singleton_append]
    rw [narrowParams] at h
    split at h
    · rename_i hget
      have hitem : narrowItem A winningParams bracket name spec = none := by
        simp [narrowItem, hget]
      obtain ⟨hrest, hnames⟩ := ih hsplit h
      simp [hrest, hnames, hitem, narrowedNames]
    · rename_i winner hget
      split at h
      · cases h
      · rename_i hnarrow
        have hitem : narrowItem A winningParams bracket name spec = none := by
          simp [narrowItem, hget, hnarrow, Except.toOption]
        obtain ⟨hrest, hnames⟩ := ih hsplit h
        simp [hrest, hnames, hitem, narrowedNames]
      · rename_i spec' hnarrow
        have hitem : narrowItem A winningParams bracket name spec = some spec' := by
          simp [narrowItem, hget, hnarrow, Except.toOption]
        have hset : (params.set name spec').entries = (before ++ [(name, spec')]) ++ rest := by
          rw [Dict.entries_set_of_append hentries, List.append_assoc, List.singleton_append]
        obtain ⟨hrest, hnames⟩ := ih hset h
        simp [hrest, hnames, hitem, narrowedNames]

/-- The narrowed space and the reported names. -/
theorem of_narrowBoundsAroundWinner
    (h : narrowBoundsAroundWinner A space winningParams bracket = .ok (space', narrowed)) :
    space'.params = space.params.mapItems
        (fun name spec => (narrowItem A winningParams bracket name spec).getD spec) ∧
      narrowed = sortedNames (narrowedNames A winningParams bracket space.params.entries) := by
  have hloop : ∀ params narrowed, narrowParams A winningParams bracket space.params.entries
      space.params [] = .ok (params, narrowed) → params = space.params.mapItems
        (fun name spec => (narrowItem A winningParams bracket name spec).getD spec) ∧
      narrowed = narrowedNames A winningParams bracket space.params.entries := by
    intro params narrowed hok
    obtain ⟨hentries, hnames⟩ := of_narrowParams (List.nil_append _).symm hok
    exact ⟨Dict.ext hentries, hnames⟩
  unfold narrowBoundsAroundWinner at h
  split at h
  · cases h
  · rename_i params hok
    obtain ⟨hparams, hnames⟩ := hloop _ _ hok
    obtain ⟨rfl, rfl⟩ := Prod.mk.inj (Except.ok.inj h)
    rw [← hnames]
    refine ⟨Dict.ext ?_, rfl⟩
    have hnone : ∀ e ∈ space.params.entries,
        narrowItem A winningParams bracket e.1 e.2 = none := by
      simpa [narrowedNames] using hnames.symm
    refine (List.map_id _).symm.trans (List.map_congr_left fun e he => ?_)
    simp [hnone e he]
  · rename_i params narrowed' _ hok
    obtain ⟨hparams, hnames⟩ := hloop _ _ hok
    split at h
    · cases h
    · rename_i made hmake
      obtain ⟨rfl, rfl⟩ := Prod.mk.inj (Except.ok.inj h)
      rw [SearchSpace.params_of_make hmake, ← hnames]
      exact ⟨hparams, rfl⟩

/-- A loop that succeeds has narrowed each parameter with a winner. -/
theorem narrowSpec_ok_of_narrowParams {rest : List (String × ParamSpec)} {e : String × ParamSpec}
    (h : narrowParams A winningParams bracket rest params narrowed = .ok (params', narrowed'))
    (he : e ∈ rest) (hwinner : winningParams.get? e.1 = some winner) :
    ∃ r, narrowSpec A e.2 winner bracket = .ok r := by
  induction rest generalizing params narrowed with
  | nil => cases he
  | cons e' rest ih =>
    rw [narrowParams] at h
    rcases List.mem_cons.mp he with rfl | hmem
    · rw [hwinner] at h
      cases hnarrow : narrowSpec A e.2 winner bracket with
      | ok r => exact ⟨r, rfl⟩
      | error error => simp [hnarrow] at h
    · split at h
      · exact ih h hmem
      · split at h
        · cases h
        · exact ih h hmem
        · exact ih h hmem

/-- Narrowing that succeeds has narrowed each parameter with a winner. -/
theorem narrowSpec_ok_of_ok {name : String}
    (h : narrowBoundsAroundWinner A space winningParams bracket = .ok (space', narrowed))
    (hget : space.params.get? name = some spec) (hwinner : winningParams.get? name = some winner) :
    ∃ r, narrowSpec A spec winner bracket = .ok r := by
  have hmem : (name, spec) ∈ space.params.entries := (space.params.get?_eq_some_iff _ _).mp hget
  unfold narrowBoundsAroundWinner at h
  split at h
  · cases h
  · rename_i hok
    exact narrowSpec_ok_of_narrowParams hok hmem hwinner
  · rename_i hok
    exact narrowSpec_ok_of_narrowParams hok hmem hwinner

theorem narrowParams_ok {rest : List (String × ParamSpec)}
    (hok : ∀ e ∈ rest, ∀ winner, winningParams.get? e.1 = some winner →
      ∃ r, narrowSpec A e.2 winner bracket = .ok r) :
    ∃ r, narrowParams A winningParams bracket rest params narrowed = .ok r := by
  induction rest generalizing params narrowed with
  | nil => exact ⟨_, rfl⟩
  | cons e rest ih =>
    have hrest : ∀ params narrowed,
        ∃ r, narrowParams A winningParams bracket rest params narrowed = .ok r := fun _ _ =>
      ih fun e' he' => hok e' (List.mem_cons_of_mem e he')
    rw [narrowParams]
    split
    · exact hrest _ _
    · rename_i winner hget
      obtain ⟨r, hr⟩ := hok e List.mem_cons_self winner hget
      simp only [hr]
      cases r with
      | none => exact hrest _ _
      | some spec' => exact hrest _ _

/-- Every winner of the assignment is a float without rounding. -/
def AllFitFloat (A : FloatArith) (winningParams : Dict String (Json ℚ)) : Prop :=
  ∀ name winner, winningParams.get? name = some winner → FitsFloat A winner

/-- A parameter is replaced exactly when the bracket around its value is computed. -/
theorem narrowItem_cases (hA : A.Rounds) (hbracket : 0 < bracket)
    (hfits : AllFitFloat A winningParams) (name : String) (spec : ParamSpec) :
    (narrowItem A winningParams bracket name spec = none ∧
        ∀ winner value, winningParams.get? name = some winner →
          spec.winnerValue winner = some value → ¬ spec.Bracketed A value bracket) ∨
      ∃ spec' winner value, narrowItem A winningParams bracket name spec = some spec' ∧
        winningParams.get? name = some winner ∧ spec.winnerValue winner = some value ∧
        NarrowedBy A spec value bracket spec' := by
  cases hget : winningParams.get? name with
  | none => exact Or.inl ⟨by simp [narrowItem, hget], fun winner value h => by cases h⟩
  | some winner =>
    rcases narrowSpec_cases hA hbracket (hfits name winner hget) spec with
      ⟨hnarrow, houtside⟩ | ⟨spec', value, hnarrow, hvalue, hby⟩
    · refine Or.inl ⟨by simp [narrowItem, hget, hnarrow, Except.toOption], ?_⟩
      intro winner' value hwinner
      obtain rfl := Option.some.inj hwinner
      exact houtside value
    · exact Or.inr ⟨spec', winner, value, by simp [narrowItem, hget, hnarrow, Except.toOption],
        rfl, hvalue, hby⟩

theorem estimateCardinality_mapItems_le {f : String → ParamSpec → ParamSpec}
    (h : ∀ name spec, (f name spec).size ≤ spec.size) :
    estimateCardinality (params.mapItems f) ≤ estimateCardinality params := by
  simp only [estimateCardinality, Dict.mapItems, List.map_map]
  exact List.prod_le_prod' fun e _ => h e.1 e.2

theorem size_narrowItem_le (hA : A.Rounds) (hbracket : 0 < bracket)
    (hfits : AllFitFloat A winningParams) (name : String) (spec : ParamSpec) :
    ((narrowItem A winningParams bracket name spec).getD spec).size ≤ spec.size := by
  rcases narrowItem_cases hA hbracket hfits name spec with
    ⟨hitem, -⟩ | ⟨spec', _, _, hitem, -, -, hby⟩
  · rw [hitem]
    exact le_rfl
  · rw [hitem]
    exact hby.size_le

/-- Narrowing yields a space. -/
theorem narrowBoundsAroundWinner_ok (hA : A.Rounds) (hbracket : 0 < bracket)
    (hfits : AllFitFloat A winningParams) :
    ∃ space' narrowed,
      narrowBoundsAroundWinner A space winningParams bracket = .ok (space', narrowed) := by
  have hloop : ∃ r, narrowParams A winningParams bracket space.params.entries space.params [] =
      .ok r := by
    refine narrowParams_ok fun e _ winner hget => ?_
    rcases narrowSpec_cases hA hbracket (hfits e.1 winner hget) e.2 with
      ⟨hnarrow, -⟩ | ⟨spec', _, hnarrow, -⟩
    · exact ⟨none, hnarrow⟩
    · exact ⟨some spec', hnarrow⟩
  obtain ⟨⟨params, narrowed⟩, hok⟩ := hloop
  obtain ⟨hentries, -⟩ := of_narrowParams (List.nil_append _).symm hok
  have hparams : params = space.params.mapItems
      (fun name spec => (narrowItem A winningParams bracket name spec).getD spec) :=
    Dict.ext hentries
  have hnonempty : params.entries ≠ [] := by
    rw [hparams]
    simpa [Dict.mapItems] using space.nonempty
  have hcapped : estimateCardinality params ≤ cardinalityCap := by
    rw [hparams]
    exact (estimateCardinality_mapItems_le (size_narrowItem_le hA hbracket hfits)).trans
      space.capped
  unfold narrowBoundsAroundWinner
  rw [hok]
  cases narrowed with
  | nil => exact ⟨space, [], rfl⟩
  | cons name names =>
    have hmake : SearchSpace.make params = .ok ⟨params, hnonempty, hcapped⟩ := by
      rw [SearchSpace.make, dif_neg hnonempty, dif_pos hcapped]
    exact ⟨⟨params, hnonempty, hcapped⟩, sortedNames (name :: names), by simp only [hmake]⟩

/-! ## What narrowing promises -/

/-- The narrowed ranges lie in the ranges before and hold the winner's values; nothing else
changes, and the space does not grow. -/
structure Narrows (space : SearchSpace) (winningParams : Dict String (Json ℚ))
    (space' : SearchSpace) (narrowed : List String) : Prop where
  inside : ∀ name ∈ narrowed, ∃ spec spec' winner value,
    space.params.get? name = some spec ∧ space'.params.get? name = some spec' ∧
      winningParams.get? name = some winner ∧ spec.winnerValue winner = some value ∧
      spec.NarrowsTo spec' value
  others : ∀ name, name ∉ narrowed → space'.params.get? name = space.params.get? name
  size : estimateCardinality space'.params ≤ estimateCardinality space.params
  sorted : narrowed.Pairwise (· < ·)

/-- The reported names are those of the parameters that have changed. -/
def ReportsChanges (space space' : SearchSpace) (narrowed : List String) : Prop :=
  ∀ name, name ∈ narrowed ↔ space'.params.get? name ≠ space.params.get? name

/-- The value lies strictly inside the range, and the bracket around it covers the range. -/
def Covered (sqrtTwo bracket : ℚ) : ParamSpec → ℚ → Prop
  | .float p, value => p.low < value ∧ value < p.high ∧
    if p.log then value ≤ p.low * sqrtTwo ∧ p.high ≤ value * sqrtTwo
    else value - |value| * bracket ≤ p.low ∧ p.high ≤ value + |value| * bracket
  | .int p, value => p.low < value ∧ value < p.high ∧
    value - |value| * bracket < p.low + 1 ∧ p.high - 1 < value + |value| * bracket
  | .categorical _, _ | .normalizerPipeline _, _ => False

/-- A bracket covers a range when it is computed and has both bounds. -/
theorem covered_iff (hA : A.Exact) : Covered A.sqrtTwo bracket spec value ↔
    spec.Bracketed A value bracket ∧ ∃ range, spec.range? = some range ∧
      (spec.ends A value bracket).1 ≤ range.fst ∧ range.snd ≤ (spec.ends A value bracket).2 := by
  cases spec with
  | categorical p => simp [Covered, ParamSpec.range?]
  | normalizerPipeline p => simp [Covered, ParamSpec.range?]
  | int p =>
    have hends : (ParamSpec.int p).ends A value bracket =
        ((⌊value - |value| * bracket⌋ : ℚ), (⌈value + |value| * bracket⌉ : ℚ)) := by
      simp only [ParamSpec.ends, intEnds, hA.sub, hA.add, hA.mul]
    have hlow : ((⌊value - |value| * bracket⌋ : ℚ) ≤ p.low) ↔
        value - |value| * bracket < p.low + 1 := by
      rw [Int.cast_le, Int.floor_le_iff]
    have hhigh : ((p.high : ℚ) ≤ ⌈value + |value| * bracket⌉) ↔
        p.high - 1 < value + |value| * bracket := by
      rw [Int.cast_le, Int.le_ceil_iff]
    simp only [Covered, ParamSpec.Bracketed, hends, ParamSpec.range?, ParamSpec.isFloat,
      Option.some.injEq, exists_eq_left', IntParam.fst_range, IntParam.snd_range, hlow, hhigh]
    simp [and_assoc]
  | float p =>
    have hpos : 0 < A.sqrtTwo := zero_lt_one.trans hA.one_lt_sqrtTwo
    have hends : (p.ends A value bracket).1 ≤ p.low ∧ p.high ≤ (p.ends A value bracket).2 ↔
        if p.log then value ≤ p.low * A.sqrtTwo ∧ p.high ≤ value * A.sqrtTwo
        else value - |value| * bracket ≤ p.low ∧ p.high ≤ value + |value| * bracket := by
      simp only [FloatParam.ends, hA.sub, hA.add, hA.mul, hA.div]
      split
      · rw [div_le_iff₀ hpos]
      · rfl
    simp only [Covered, ← hends, ParamSpec.Bracketed, ParamSpec.ends, ParamSpec.range?,
      Option.some.injEq, exists_eq_left', FloatParam.fst_range, FloatParam.snd_range]
    constructor
    · rintro ⟨hfst, hsnd, hlow, hhigh⟩
      exact ⟨⟨hfst, hsnd, fun _ => hlow.trans_lt (p.bounds.trans_le hhigh)⟩, hlow, hhigh⟩
    · rintro ⟨⟨hfst, hsnd, -⟩, hlow, hhigh⟩
      exact ⟨hfst, hsnd, hlow, hhigh⟩

theorem mem_narrowed_iff {name : String}
    (hnames : narrowed = sortedNames (narrowedNames A winningParams bracket space.params.entries)) :
    name ∈ narrowed ↔ ∃ spec, space.params.get? name = some spec ∧
      (narrowItem A winningParams bracket name spec).isSome := by
  rw [hnames, mem_sortedNames, narrowedNames, List.mem_map]
  constructor
  · rintro ⟨⟨_, spec⟩, he, rfl⟩
    obtain ⟨hmem, hsome⟩ := List.mem_filter.mp he
    exact ⟨spec, (space.params.get?_eq_some_iff _ _).mpr hmem, hsome⟩
  · rintro ⟨spec, hget, hsome⟩
    exact ⟨(name, spec), List.mem_filter.mpr
      ⟨(space.params.get?_eq_some_iff _ _).mp hget, hsome⟩, rfl⟩

theorem get?_narrowed (hparams : space'.params = space.params.mapItems
      (fun name spec => (narrowItem A winningParams bracket name spec).getD spec))
    {name : String} {spec : ParamSpec} (hget : space.params.get? name = some spec) :
    space'.params.get? name =
      some ((narrowItem A winningParams bracket name spec).getD spec) := by
  rw [hparams, Dict.get?_mapItems, hget]
  rfl

theorem sorted_sortedNames {names : List String} (h : names.Nodup) :
    (sortedNames names).Pairwise (· < ·) := by
  have hsorted : (sortedNames names).Pairwise (· ≤ ·) := List.pairwise_insertionSort _ _
  have hnodup : (sortedNames names).Nodup := (List.perm_insertionSort _ names).nodup_iff.mpr h
  exact hsorted.imp₂ (fun _ _ hle hne => lt_of_le_of_ne hle hne) hnodup

/-- Whatever narrowing reports, the narrowed ranges are right. -/
theorem narrows_of_ok (hA : A.Rounds) (hbracket : 0 < bracket)
    (hfits : AllFitFloat A winningParams)
    (h : narrowBoundsAroundWinner A space winningParams bracket = .ok (space', narrowed)) :
    Narrows space winningParams space' narrowed := by
  obtain ⟨hparams, hnames⟩ := of_narrowBoundsAroundWinner h
  constructor
  · intro name hname
    obtain ⟨spec, hget, hsome⟩ := (mem_narrowed_iff hnames).mp hname
    rcases narrowItem_cases hA hbracket hfits name spec with
      ⟨hitem, -⟩ | ⟨spec', winner, value, hitem, hwinner, hvalue, hby⟩
    · rw [hitem] at hsome
      cases hsome
    · refine ⟨spec, spec', winner, value, hget, ?_, hwinner, hvalue, hby.narrowsTo hA hbracket⟩
      rw [get?_narrowed hparams hget, hitem]
      rfl
  · intro name hname
    cases hget : space.params.get? name with
    | none => rw [hparams, Dict.get?_mapItems, hget, Option.map_none]
    | some spec =>
      have hitem : narrowItem A winningParams bracket name spec = none := by
        rw [← Option.not_isSome_iff_eq_none]
        exact fun hsome => hname ((mem_narrowed_iff hnames).mpr ⟨spec, hget, hsome⟩)
      rw [get?_narrowed hparams hget, hitem]
      rfl
  · rw [hparams]
    exact estimateCardinality_mapItems_le (size_narrowItem_le hA hbracket hfits)
  · rw [hnames]
    exact sorted_sortedNames (space.params.nodup.sublist (List.filter_sublist.map Prod.fst))

/-- A parameter is reported without a change exactly when its bracket covers its range. -/
theorem reportsChanges_iff (hA : A.Exact) (hbracket : 0 < bracket)
    (h : narrowBoundsAroundWinner A space winningParams bracket = .ok (space', narrowed)) :
    ReportsChanges space space' narrowed ↔
      ∀ name spec winner value, space.params.get? name = some spec →
        winningParams.get? name = some winner → spec.winnerValue winner = some value →
        ¬ Covered A.sqrtTwo bracket spec value := by
  have hfits : AllFitFloat A winningParams := fun _ _ _ => hA.fitsFloat
  obtain ⟨hparams, hnames⟩ := of_narrowBoundsAroundWinner h
  have hnarrows := narrows_of_ok hA.rounds hbracket hfits h
  constructor
  · intro hreports name spec winner value hget hwinner hvalue hcovered
    obtain ⟨hbracketed, range, hrange, hends⟩ := (covered_iff hA).mp hcovered
    rcases narrowItem_cases hA.rounds hbracket hfits name spec with
      ⟨-, houtside⟩ | ⟨spec', winner', value', hitem, hwinner', hvalue', hby⟩
    · exact houtside winner value hwinner hvalue hbracketed
    · obtain rfl := Option.some.inj (hwinner.symm.trans hwinner')
      obtain rfl := Option.some.inj (hvalue.symm.trans hvalue')
      have hsame : spec' = spec := (hby.eq_iff hrange).mpr hends
      have hname : name ∈ narrowed :=
        (mem_narrowed_iff hnames).mpr ⟨spec, hget, by rw [hitem]; rfl⟩
      apply (hreports name).mp hname
      rw [get?_narrowed hparams hget, hitem, hsame, hget]
      rfl
  · intro huncovered name
    constructor
    · intro hname hsame
      obtain ⟨spec, hget, hsome⟩ := (mem_narrowed_iff hnames).mp hname
      rcases narrowItem_cases hA.rounds hbracket hfits name spec with
        ⟨hitem, -⟩ | ⟨spec', winner, value, hitem, hwinner, hvalue, hby⟩
      · rw [hitem] at hsome
        cases hsome
      · rw [get?_narrowed hparams hget, hitem, hget] at hsame
        obtain rfl : spec' = spec := Option.some.inj hsame
        obtain ⟨range, -, hrange, -⟩ := hby.clamped
        refine huncovered name spec' winner value hget hwinner hvalue ((covered_iff hA).mpr ?_)
        exact ⟨hby.bracketed, range, hrange, (hby.eq_iff hrange).mp rfl⟩
    · intro hchanged
      by_contra hname
      exact hchanged (hnarrows.others name hname)

/-- Narrowing keeps its promises and reports the changes exactly when no bracket covers its
range. -/
theorem narrow_bounds_iff (hA : A.Exact) (hbracket : 0 < bracket) :
    (∃ space' narrowed,
      narrowBoundsAroundWinner A space winningParams bracket = .ok (space', narrowed) ∧
        Narrows space winningParams space' narrowed ∧ ReportsChanges space space' narrowed) ↔
      ∀ name spec winner value, space.params.get? name = some spec →
        winningParams.get? name = some winner → spec.winnerValue winner = some value →
        ¬ Covered A.sqrtTwo bracket spec value := by
  have hfits : AllFitFloat A winningParams := fun _ _ _ => hA.fitsFloat
  constructor
  · rintro ⟨space', narrowed, hok, -, hreports⟩
    exact (reportsChanges_iff hA hbracket hok).mp hreports
  · intro huncovered
    obtain ⟨space', narrowed, hok⟩ := narrowBoundsAroundWinner_ok hA.rounds hbracket hfits
    exact ⟨space', narrowed, hok, narrows_of_ok hA.rounds hbracket hfits hok,
      (reportsChanges_iff hA hbracket hok).mpr huncovered⟩

/-! ## A small integer range -/

theorem one_le_three : (1 : ℤ) ≤ 3 := by norm_num

/-- A space of one integer. -/
def slopParams (p : IntParam) : Dict String ParamSpec := Dict.empty.set "slop" (.int p)

theorem slopParams_ne_nil (p : IntParam) : (slopParams p).entries ≠ [] := by
  simp [slopParams, Dict.set, Dict.empty]

theorem slopParams_capped (p : IntParam) (h : (p.high - p.low + 1).toNat ≤ cardinalityCap) :
    estimateCardinality (slopParams p) ≤ cardinalityCap := by
  simpa [slopParams, Dict.set, Dict.empty, estimateCardinality, ParamSpec.size] using h

/-- From 0 to 5, as `_size` parameters start. -/
def startingSlop : SearchSpace where
  params := slopParams ⟨0, 5, zero_le_five⟩
  nonempty := slopParams_ne_nil _
  capped := slopParams_capped _ (by decide)

/-- From 1 to 3. -/
def narrowSlop : SearchSpace where
  params := slopParams ⟨1, 3, one_le_three⟩
  nonempty := slopParams_ne_nil _
  capped := slopParams_capped _ (by decide)

/-- A best trial with the value 2. -/
def slopTwo : Dict String (Json ℚ) := Dict.empty.set "slop" (.int 2)

theorem narrow_bounds_startingSlop : ∃ space' narrowed,
    narrowBoundsAroundWinner exactArith startingSlop slopTwo (1 / 2) = .ok (space', narrowed) ∧
      Narrows startingSlop slopTwo space' narrowed ∧
      ReportsChanges startingSlop space' narrowed := by
  refine (narrow_bounds_iff exact_exactArith (by norm_num)).mpr ?_
  intro name spec winner value hget hwinner hvalue hcovered
  have hname : name = "slop" := by
    by_contra hne
    simp [startingSlop, slopParams, Dict.get?_set, hne] at hget
  subst hname
  obtain rfl : ParamSpec.int ⟨0, 5, zero_le_five⟩ = spec := Option.some.inj hget
  obtain rfl : Json.int 2 = winner := Option.some.inj hwinner
  obtain rfl : ((2 : ℤ) : ℚ) = value := Option.some.inj hvalue
  norm_num [Covered] at hcovered

/-- Around 2 the bracket from 1 to 3 has both bounds: the space stays, and its name is reported. -/
theorem unchanged_range_is_reported :
    (narrowBoundsAroundWinner exactArith narrowSlop slopTwo (1 / 2)).toOption.map
        (fun r => (r.1.params.entries, r.2)) = some (narrowSlop.params.entries, ["slop"]) ∧
      ¬ ∃ space' narrowed,
        narrowBoundsAroundWinner exactArith narrowSlop slopTwo (1 / 2) = .ok (space', narrowed) ∧
          Narrows narrowSlop slopTwo space' narrowed ∧
          ReportsChanges narrowSlop space' narrowed := by
  constructor
  · decide +kernel
  · rintro ⟨space', narrowed, hok, -, hreports⟩
    have huncovered := (reportsChanges_iff exact_exactArith (by norm_num) hok).mp hreports
    refine huncovered "slop" (.int ⟨1, 3, one_le_three⟩) (.int 2) 2 rfl rfl rfl ?_
    norm_num [Covered]

end RelyLoop.Spaces
