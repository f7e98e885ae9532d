import RelyLoop.Judgments.OpenAiJudge

/-!
# When a call of the judge keeps its contract

The items of a response are validated one by one, and an id that cannot be hashed ends the
loop. A run is followed to its last attempt; the replies before it are discarded, with
what they cost.
-/

namespace RelyLoop.Judgments.OpenAiJudge

open Budget Generation Python

variable {F : Type} {expectedDocIds : List String} {item : Json F} {items : List (Json F)}
  {ratings : List DocRating}

/-! ## The validation of the items -/

/-- A value that Python cannot hash. -/
def IsUnhashable : Json F → Prop
  | .list _ => True
  | .dict _ _ => True
  | _ => False

/-- An item whose id cannot be hashed. -/
def HasUnhashableId (item : Json F) : Prop :=
  ∃ docId, item.get? "doc_id" = some docId ∧ IsUnhashable docId

theorem ratingInRange_eq_some_iff {rating : ℤ} {r : Fin 4} :
    ratingInRange rating = some r ↔ rating = (r : ℕ) := by
  unfold ratingInRange
  constructor
  · intro h
    split at h
    · obtain rfl := Option.some.inj h
      simp only
      omega
    · cases h
  · intro h
    have hr := r.isLt
    rw [dif_pos (by omega)]
    congr 1
    apply Fin.ext
    simp only [h, Int.toNat_natCast]

theorem asText_eq_some_iff {value : Json F} {text : String} :
    asText value = some text ↔ value = .str text := by
  cases value <;> simp [asText]

/-- The validation of an item, whatever it is. -/
def validateValue (expectedDocIds : List String) (item : Json F) :
    Except OpenAiError (Option DocRating) :=
  match ratingItem item with
  | none => .ok none
  | some item => validateItem expectedDocIds item

theorem validateItems_cons : validateItems expectedDocIds ((item :: items).map ratingItem) = (do
    let validated ← validateValue expectedDocIds item
    let rest ← validateItems expectedDocIds (items.map ratingItem)
    return validated.toList ++ rest) := by
  unfold validateValue
  rw [List.map_cons]
  cases ratingItem item with
  | none =>
    rw [validateItems]
    cases validateItems expectedDocIds (items.map ratingItem) <;> rfl
  | some item => rfl

/-- An object is read key by key; another value has no keys. -/
theorem ratingItem_cases (item : Json F) :
    ratingItem item = none ∧ item.get? "doc_id" = none ∨
      ratingItem item = some
        { docId := itemDocId (item.get? "doc_id")
          rating := (item.get? "rating").bind asInt
          rationale := (item.get? "rationale").bind asText } := by
  cases item with
  | dict keys values => exact Or.inr rfl
  | null => exact Or.inl ⟨rfl, rfl⟩
  | bool b => exact Or.inl ⟨rfl, rfl⟩
  | int i => exact Or.inl ⟨rfl, rfl⟩
  | float f => exact Or.inl ⟨rfl, rfl⟩
  | str text => exact Or.inl ⟨rfl, rfl⟩
  | list items => exact Or.inl ⟨rfl, rfl⟩

/-- What an id is to the code. -/
theorem itemDocId_cases (docId : Option (Json F)) :
    (∃ text, docId = some (.str text) ∧ itemDocId docId = .text text) ∨
      (∃ value, docId = some value ∧ IsUnhashable value ∧ itemDocId docId = .unhashable) ∨
      (∀ value, docId = some value → ¬ IsUnhashable value ∧ ∀ text, value ≠ .str text) ∧
        itemDocId docId = .otherHashable := by
  cases docId with
  | none => exact Or.inr (Or.inr ⟨fun value h => (by cases h), rfl⟩)
  | some value =>
    cases value with
    | str text => exact Or.inl ⟨text, rfl, rfl⟩
    | list items => exact Or.inr (Or.inl ⟨_, rfl, trivial, rfl⟩)
    | dict keys values => exact Or.inr (Or.inl ⟨_, rfl, trivial, rfl⟩)
    | _ =>
      refine Or.inr (Or.inr ⟨fun value h => ?_, rfl⟩)
      obtain rfl := Option.some.inj h
      exact ⟨id, fun text h => by cases h⟩

/-- The checks after those of the id. -/
theorem validateItem_text {docId : String} (rating : Option ℤ) (rationale : Option String)
    (hdocId : docId ∈ expectedDocIds) : ∃ validated,
      validateItem expectedDocIds ⟨.text docId, rating, rationale⟩ = .ok validated ∧
        ∀ rated, validated = some rated ↔
          rated.docId = docId ∧ rating = some ((rated.rating : ℕ) : ℤ) ∧
            rationale = some rated.rationale := by
  refine ⟨_, if_neg (not_not_intro hdocId), fun rated => ?_⟩
  cases rationale with
  | none => simp
  | some rationale =>
    cases rating with
    | none => simp
    | some rating =>
      simp only [Option.bind_eq_bind, Option.bind_some, Option.bind_eq_some_iff,
        ratingInRange_eq_some_iff, Option.some.injEq, Option.pure_def]
      constructor
      · rintro ⟨r, hr, rfl⟩
        exact ⟨rfl, hr, rfl⟩
      · rintro ⟨rfl, hr, rfl⟩
        exact ⟨rated.rating, hr, rfl⟩

/-- An item has an id that cannot be hashed, or it is validated. -/
theorem validateValue_spec (expectedDocIds : List String) (item : Json F) :
    (HasUnhashableId item ∧ ∃ e, validateValue expectedDocIds item = .error e) ∨
      ¬ HasUnhashableId item ∧ ∃ validated, validateValue expectedDocIds item = .ok validated ∧
        ∀ rated, validated = some rated ↔ IsRated expectedDocIds item rated := by
  unfold validateValue
  rcases ratingItem_cases item with ⟨hitem, hget⟩ | hitem
  · rw [hitem]
    refine Or.inr ⟨fun ⟨docId, hdocId, _⟩ => ?_, none, rfl, fun rated => ?_⟩
    · rw [hget] at hdocId
      cases hdocId
    · refine iff_of_false (by simp) fun h => ?_
      rw [h.docId] at hget
      cases hget
  rw [hitem]
  rcases itemDocId_cases (item.get? "doc_id") with ⟨text, hget, hid⟩ | ⟨value, hget, hvalue, hid⟩ |
    ⟨hother, hid⟩
  · have hhashable : ¬ HasUnhashableId item := by
      rintro ⟨docId, hdocId, hunhashable⟩
      rw [hget] at hdocId
      obtain rfl := Option.some.inj hdocId
      exact hunhashable
    simp only [hid]
    by_cases hexpected : text ∈ expectedDocIds
    · obtain ⟨validated, hok, hspec⟩ := validateItem_text
        ((item.get? "rating").bind asInt) ((item.get? "rationale").bind asText) hexpected
      refine Or.inr ⟨hhashable, validated, hok, fun rated => (hspec rated).trans ?_⟩
      constructor
      · rintro ⟨rfl, hrating, hrationale⟩
        obtain ⟨value, hvalue, htext⟩ := Option.bind_eq_some_iff.mp hrationale
        exact ⟨hget, hexpected, hrating, hvalue.trans (congrArg some (asText_eq_some_iff.mp htext))⟩
      · intro h
        have hdocId := h.docId.symm.trans hget
        refine ⟨by simpa using hdocId, h.rating, ?_⟩
        rw [h.rationale, Option.bind_some, asText]
    · refine Or.inr ⟨hhashable, none, if_pos hexpected, fun rated => iff_of_false (by simp) ?_⟩
      intro h
      have hdocId := h.docId.symm.trans hget
      simp only [Option.some.injEq, Json.str.injEq] at hdocId
      exact hexpected (hdocId ▸ h.expected)
  · simp only [hid]
    exact Or.inl ⟨⟨value, hget, hvalue⟩, _, rfl⟩
  · simp only [hid]
    refine Or.inr ⟨fun ⟨docId, hdocId, hunhashable⟩ => (hother docId hdocId).1 hunhashable,
      none, rfl, fun rated => iff_of_false (by simp) fun h => ?_⟩
    exact (hother _ h.docId).2 _ rfl

/-- The loop over the items raises for an id that cannot be hashed, and otherwise keeps
the items that count. -/
theorem validateItems_spec (expectedDocIds : List String) (items : List (Json F)) :
    ((∃ item ∈ items, HasUnhashableId item) ∧
        ∃ e, validateItems expectedDocIds (items.map ratingItem) = .error e) ∨
      (∀ item ∈ items, ¬ HasUnhashableId item) ∧
        ∃ ratings, validateItems expectedDocIds (items.map ratingItem) = .ok ratings ∧
          Keeps (IsRated expectedDocIds) items ratings := by
  induction items with
  | nil => exact Or.inr ⟨by simp, [], rfl, .nil⟩
  | cons item items ih =>
    rw [validateItems_cons]
    rcases validateValue_spec expectedDocIds item with ⟨hitem, e, herror⟩ |
      ⟨hitem, validated, hok, hspec⟩
    · refine Or.inl ⟨⟨item, List.mem_cons_self, hitem⟩, e, ?_⟩
      rw [herror]
      rfl
    · rw [hok]
      rcases ih with ⟨⟨bad, hmem, hbad⟩, e, herror⟩ | ⟨hall, ratings, hratings, hkeeps⟩
      · refine Or.inl ⟨⟨bad, List.mem_cons_of_mem _ hmem, hbad⟩, e, ?_⟩
        rw [herror]
        rfl
      · refine Or.inr ⟨List.forall_mem_cons.mpr ⟨hitem, hall⟩, validated.toList ++ ratings, ?_, ?_⟩
        · rw [hratings]
          rfl
        · cases validated with
          | none =>
            exact .drop (fun rated h => by simpa using (hspec rated).mpr h) hkeeps
          | some rated => exact .keep ((hspec rated).mp rfl) hkeeps

/-! ## The cost -/

/-- A model of `known_models`. -/
def IsPriced (model : String) : Prop :=
  (modelUsdPer1kInput.get? model).isSome ∧ (modelUsdPer1kOutput.get? model).isSome

instance (model : String) : Decidable (IsPriced model) :=
  inferInstanceAs (Decidable (_ ∧ _))

/-- A reply that is billed no tokens. -/
def BillsNothing : Reply → Prop
  | .ok { content := _, usage := some usage } =>
    usage.promptTokens = 0 ∧ usage.completionTokens = 0
  | _ => True

variable {model : String} {inputTokens outputTokens : ℕ} {reply : Reply}

theorem computeCallCost_cases (model : String) (inputTokens outputTokens : ℕ) :
    (¬ IsPriced model ∧ ∃ e, computeCallCost model inputTokens outputTokens = .error e) ∨
      IsPriced model ∧
        ∃ costUsd, computeCallCost model inputTokens outputTokens = .ok costUsd := by
  unfold IsPriced computeCallCost
  cases modelUsdPer1kInput.get? model with
  | none => exact Or.inl ⟨by simp, _, rfl⟩
  | some inRate =>
    cases modelUsdPer1kOutput.get? model with
    | none => exact Or.inl ⟨by simp, _, rfl⟩
    | some outRate => exact Or.inr ⟨by simp, _, rfl⟩

/-- Only a call without tokens is free. -/
theorem computeCallCost_eq_zero_iff {costUsd : ℚ}
    (h : computeCallCost model inputTokens outputTokens = .ok costUsd) :
    costUsd = 0 ↔ inputTokens = 0 ∧ outputTokens = 0 := by
  obtain ⟨inRate, outRate, hin, hout, rfl⟩ := computeCallCost_ok h
  have hinput : (0 : ℚ) ≤ inputTokens / 1000 * inRate := by positivity
  have houtput : (0 : ℚ) ≤ outputTokens / 1000 * outRate := by positivity
  rw [add_eq_zero_iff_of_nonneg hinput houtput]
  simp [hin.ne', hout.ne']

theorem billedCost_nonneg (model : String) (reply : Reply) : 0 ≤ billedCost model reply := by
  unfold billedCost
  split
  · rename_i usage
    rcases computeCallCost_cases model usage.promptTokens usage.completionTokens with
      ⟨-, e, herror⟩ | ⟨-, costUsd, hcost⟩
    · rw [herror]
      exact le_refl 0
    · rw [hcost]
      exact computeCallCost_nonneg hcost
  · exact le_refl 0

theorem billedCost_eq_zero_iff (hmodel : IsPriced model) :
    billedCost model reply = 0 ↔ BillsNothing reply := by
  rcases reply with e | ⟨content, usage⟩
  · exact iff_of_true rfl trivial
  cases usage with
  | none => exact iff_of_true rfl trivial
  | some usage =>
    rcases computeCallCost_cases model usage.promptTokens usage.completionTokens with
      ⟨hno, -⟩ | ⟨-, costUsd, hcost⟩
    · exact absurd hmodel hno
    · simp only [billedCost, hcost]
      exact computeCallCost_eq_zero_iff hcost

/-- The last of some amounts covers all of them when the others are nothing. -/
theorem sum_le_last_iff {f : ℕ → ℚ} (hf : ∀ i, 0 ≤ f i) {n : ℕ} (hn : 1 ≤ n) :
    ∑ i ∈ Finset.Icc 1 n, f i ≤ f n ↔ ∀ i, 1 ≤ i → i < n → f i = 0 := by
  have hsplit : ∑ i ∈ Finset.Icc 1 n, f i = ∑ i ∈ Finset.Ico 1 n, f i + f n := by
    rw [← Finset.Ico_succ_right_eq_Icc, Order.succ_eq_add_one, Finset.sum_Ico_succ_top hn]
  rw [hsplit, add_le_iff_nonpos_left]
  constructor
  · intro h i hi hin
    have hzero := le_antisymm h (Finset.sum_nonneg fun i _ => hf i)
    exact (Finset.sum_eq_zero_iff_of_nonneg fun i _ => hf i).mp hzero i
      (Finset.mem_Ico.mpr ⟨hi, hin⟩)
  · intro h
    refine (Finset.sum_eq_zero fun i hi => ?_).le
    exact h i (Finset.mem_Ico.mp hi).1 (Finset.mem_Ico.mp hi).2

/-! ## The last attempt -/

variable {loads : String → Except LoadsError (Json F)} {maxRetries : ℤ} {replies : ℕ → Reply}
  {n : ℕ}

/-- `json.loads` fails other than by a `JSONDecodeError`. -/
def LoadsRaises (loads : String → Except LoadsError (Json F)) : Reply → Prop
  | .error _ => False
  | .ok response => ∃ typeName, loads (response.content.getD "") = .error (.other typeName)

/-- The response is JSON, but has no list of ratings. -/
def ViolatesSchema (loads : String → Except LoadsError (Json F)) : Reply → Prop
  | .error _ => False
  | .ok response =>
    ∃ parsed, loads (response.content.getD "") = .ok parsed ∧ rawRatings parsed = none

/-- A reply after which another attempt is made. -/
def IsRejected (loads : String → Except LoadsError (Json F)) : Reply → Prop
  | .error e => e.retryable = true
  | .ok response =>
    loads (response.content.getD "") = .error .decode ∨ ViolatesSchema loads (.ok response)

/-- The reply to an attempt does no harm: its text is read or is no JSON, it does not
violate the schema in the last attempt, its ids can be hashed, and if it is accepted and
priced then nothing has been billed before. -/
structure IsHarmless (loads : String → Except LoadsError (Json F)) (model : String)
    (maxRetries : ℤ) (replies : ℕ → Reply) (attempt : ℕ) : Prop where
  readable : ¬ LoadsRaises loads (replies attempt)
  shape : (attempt : ℤ) = maxRetries → ¬ ViolatesSchema loads (replies attempt)
  hashable : ∀ items, acceptedItems loads (replies attempt) = some items →
    ∀ item ∈ items, ¬ HasUnhashableId item
  unbilled : (acceptedItems loads (replies attempt)).isSome → IsPriced model →
    ∀ before, 1 ≤ before → before < attempt → BillsNothing (replies before)

/-- Attempts are allowed, and the reply to each attempt that is made does no harm. -/
structure IsHarmlessRun (loads : String → Except LoadsError (Json F)) (model : String)
    (maxRetries : ℤ) (replies : ℕ → Reply) : Prop where
  allowed : 1 ≤ maxRetries
  harmless : ∀ attempt : ℕ, 1 ≤ attempt → (attempt : ℤ) ≤ maxRetries →
    (∀ before, 1 ≤ before → before < attempt → IsRejected loads (replies before)) →
      IsHarmless loads model maxRetries replies attempt

/-- A call fails, or its text is no JSON, is not read, is of another shape, or is accepted. -/
theorem reply_cases (loads : String → Except LoadsError (Json F)) (reply : Reply) :
    (∃ e, reply = .error e) ∨ ∃ response, reply = .ok response ∧
      (loads (response.content.getD "") = .error .decode ∨
        (∃ typeName, loads (response.content.getD "") = .error (.other typeName)) ∨
        ∃ parsed, loads (response.content.getD "") = .ok parsed ∧
          (rawRatings parsed = none ∨ ∃ items, rawRatings parsed = some items)) := by
  cases reply with
  | error e => exact Or.inl ⟨e, rfl⟩
  | ok response =>
    refine Or.inr ⟨response, rfl, ?_⟩
    cases loads (response.content.getD "") with
    | error e =>
      cases e with
      | decode => exact Or.inl rfl
      | other typeName => exact Or.inr (Or.inl ⟨typeName, rfl⟩)
    | ok parsed =>
      refine Or.inr (Or.inr ⟨parsed, rfl, ?_⟩)
      cases rawRatings parsed with
      | none => exact Or.inl rfl
      | some items => exact Or.inr ⟨items, rfl⟩

theorem not_isDiscarded_acceptResponse {response : Response} :
    ¬ (acceptResponse model expectedDocIds response items).IsDiscarded := by
  unfold acceptResponse
  cases validateItems expectedDocIds (items.map ratingItem) with
  | error e => exact id
  | ok ratings =>
    simp only
    split
    · exact id
    · exact id

theorem isDiscarded_judgeAttempt :
    (judgeAttempt loads model expectedDocIds reply).IsDiscarded ↔ IsRejected loads reply := by
  rcases reply_cases loads reply with ⟨e, rfl⟩ | ⟨response, rfl, hdecode | ⟨typeName, hother⟩ |
    ⟨parsed, hparsed, hraw | ⟨items, hraw⟩⟩⟩
  · cases h : e.retryable <;> simp [judgeAttempt, IsRejected, h, Attempt.IsDiscarded]
  · simp [judgeAttempt, IsRejected, hdecode, Attempt.IsDiscarded]
  · simp [judgeAttempt, IsRejected, ViolatesSchema, hother, Attempt.IsDiscarded]
  · simp [judgeAttempt, IsRejected, ViolatesSchema, hparsed, hraw, Attempt.IsDiscarded]
  · simp [judgeAttempt, IsRejected, ViolatesSchema, hparsed, hraw,
      not_isDiscarded_acceptResponse]

/-- A rejected reply has been read, or is no JSON, and is not accepted. -/
theorem IsRejected.facts (h : IsRejected loads reply) :
    ¬ LoadsRaises loads reply ∧ acceptedItems loads reply = none := by
  rcases reply_cases loads reply with ⟨e, rfl⟩ | ⟨response, rfl, hdecode |
    ⟨typeName, hother⟩ | ⟨parsed, hparsed, hraw | ⟨items, hraw⟩⟩⟩
  · simp [LoadsRaises, acceptedItems]
  · simp [LoadsRaises, acceptedItems, hdecode, Except.toOption]
  · simp [IsRejected, ViolatesSchema, hother] at h
  · simp [LoadsRaises, acceptedItems, hparsed, hraw, Except.toOption]
  · simp [IsRejected, ViolatesSchema, hparsed, hraw] at h

/-- A rejected reply before the last attempt does no harm. -/
theorem isHarmless_of_isRejected (h : IsRejected loads (replies n)) (hn : (n : ℤ) < maxRetries) :
    IsHarmless loads model maxRetries replies n := by
  obtain ⟨hreadable, hnone⟩ := h.facts
  constructor
  · exact hreadable
  · omega
  · intro items hitems
    rw [hnone] at hitems
    cases hitems
  · intro hsome
    rw [hnone] at hsome
    cases hsome

/-- Only the reply to the last attempt can do harm. -/
theorem isHarmlessRun_iff (hn : LastMade (fun attempt =>
      judgeAttempt loads model expectedDocIds (replies attempt)) 1 maxRetries.toNat n) :
    IsHarmlessRun loads model maxRetries replies ↔ IsHarmless loads model maxRetries replies n := by
  obtain ⟨hfirst, htime, hreached, hlast⟩ := hn
  constructor
  · intro h
    apply h.harmless n hfirst (by omega)
    exact fun before hbefore hlt => isDiscarded_judgeAttempt.mp (hreached before hbefore hlt)
  · intro h
    refine ⟨by omega, fun attempt hattempt hallowed hrejected => ?_⟩
    rcases lt_trichotomy attempt n with hlt | rfl | hgt
    · apply isHarmless_of_isRejected
      · exact isDiscarded_judgeAttempt.mp (hreached attempt hattempt hlt)
      · omega
    · exact h
    · rcases hlast with hends | hlast
      · exact absurd (isDiscarded_judgeAttempt.mpr (hrejected n hfirst hgt)) hends
      · omega

/-! ## The contract -/

variable {run : Attempted JudgeError JudgeCallResult}

theorem meetsContract_of_error {e : JudgeError} (hcalls : (run.calls : ℤ) ≤ maxRetries)
    (houtcome : run.outcome = .error e) :
    MeetsContract loads model expectedDocIds maxRetries replies run ↔ e.Documented := by
  constructor
  · exact fun h => h.documented e houtcome
  · intro hdocumented
    constructor
    · exact hcalls
    · intro result hresult
      rw [houtcome] at hresult
      cases hresult
    · intro result hresult
      rw [houtcome] at hresult
      cases hresult
    · intro raised hraised
      rw [houtcome] at hraised
      cases hraised
      exact hdocumented

theorem meetsContract_of_result {result : JudgeCallResult}
    (hcalls : (run.calls : ℤ) ≤ maxRetries) (houtcome : run.outcome = .ok result)
    (hitems : acceptedItems loads (replies run.calls) = some items)
    (hkeeps : Keeps (IsRated expectedDocIds) items result.ratings) :
    MeetsContract loads model expectedDocIds maxRetries replies run ↔
      ∑ attempt ∈ Finset.Icc 1 run.calls, billedCost model (replies attempt) ≤ result.costUsd := by
  constructor
  · exact fun h => h.cost result houtcome
  · intro hcost
    constructor
    · exact hcalls
    · intro returned hreturned
      rw [houtcome] at hreturned
      cases hreturned
      exact ⟨items, hitems, hkeeps⟩
    · intro returned hreturned
      rw [houtcome] at hreturned
      cases hreturned
      exact hcost
    · intro raised hraised
      rw [houtcome] at hraised
      cases hraised

/-- The end of an attempt that accepts a response. -/
theorem acceptResponse_cases (model : String) (expectedDocIds : List String)
    (response : Response) (items : List (Json F)) :
    ((∃ item ∈ items, HasUnhashableId item) ∧
        acceptResponse model expectedDocIds response items = .raised (.other "TypeError")) ∨
      (∀ item ∈ items, ¬ HasUnhashableId item) ∧
        (¬ IsPriced model ∧
            acceptResponse model expectedDocIds response items = .raised .unknownModelPricing ∨
          IsPriced model ∧ ∃ result,
            acceptResponse model expectedDocIds response items = .result result ∧
              Keeps (IsRated expectedDocIds) items result.ratings ∧
              result.costUsd = billedCost model (.ok response)) := by
  unfold acceptResponse
  rcases validateItems_spec expectedDocIds items with ⟨hbad, e, herror⟩ |
    ⟨hall, ratings, hratings, hkeeps⟩
  · simp only [herror]
    exact Or.inl ⟨hbad, trivial⟩
  · simp only [hratings]
    rcases computeCallCost_cases model ((response.usage.map Usage.promptTokens).getD 0)
      ((response.usage.map Usage.completionTokens).getD 0) with ⟨hno, e, herror⟩ |
      ⟨hmodel, costUsd, hcost⟩
    · simp only [herror]
      exact Or.inr ⟨hall, Or.inl ⟨hno, trivial⟩⟩
    · simp only [hcost]
      refine Or.inr ⟨hall, Or.inr ⟨hmodel, _, rfl, hkeeps, ?_⟩⟩
      obtain ⟨content, usage⟩ := response
      cases usage with
      | none => exact (computeCallCost_eq_zero_iff hcost).mpr ⟨rfl, rfl⟩
      | some usage =>
        have hbilled :
            computeCallCost model usage.promptTokens usage.completionTokens = .ok costUsd := hcost
        rw [billedCost, hbilled]
        rfl

/-- What the last attempt makes of the contract. -/
theorem meetsContract_iff_isHarmless (hn : LastMade (fun attempt =>
      judgeAttempt loads model expectedDocIds (replies attempt)) 1 maxRetries.toNat n)
    (hcalls : run.calls = n)
    (houtcome : run.outcome = (judgeAttempt loads model expectedDocIds (replies n)).outcome) :
    MeetsContract loads model expectedDocIds maxRetries replies run ↔
      IsHarmless loads model maxRetries replies n := by
  obtain ⟨hfirst, htime, -, hlast⟩ := hn
  have hmax : (run.calls : ℤ) ≤ maxRetries := by omega
  rcases reply_cases loads (replies n) with ⟨e, hreply⟩ | ⟨response, hreply, hdecode |
    ⟨typeName, hother⟩ | ⟨parsed, hparsed, hraw | ⟨items, hraw⟩⟩⟩
  · have herror : run.outcome = .error (.provider e) := by
      rw [houtcome, hreply]
      cases h : e.retryable <;> simp [judgeAttempt, h, Attempt.outcome]
    rw [meetsContract_of_error hmax herror]
    refine iff_of_true trivial ⟨?_, fun _ => ?_, ?_, ?_⟩ <;>
      simp [hreply, LoadsRaises, ViolatesSchema, acceptedItems]
  · have herror : run.outcome = .error .jsonDecode := by
      simp [houtcome, hreply, judgeAttempt, hdecode, Attempt.outcome]
    rw [meetsContract_of_error hmax herror]
    refine iff_of_true trivial ⟨?_, fun _ => ?_, ?_, ?_⟩ <;>
      simp [hreply, LoadsRaises, ViolatesSchema, acceptedItems, hdecode, Except.toOption]
  · have herror : run.outcome = .error (.other typeName) := by
      simp [houtcome, hreply, judgeAttempt, hother, Attempt.outcome]
    rw [meetsContract_of_error hmax herror]
    refine iff_of_false id fun h => h.readable ?_
    rw [hreply]
    exact ⟨typeName, hother⟩
  · -- a response of another shape is discarded, so no attempt is left
    have herror : run.outcome = .error .schemaViolation := by
      simp [houtcome, hreply, judgeAttempt, hparsed, hraw, Attempt.outcome]
    rw [meetsContract_of_error hmax herror]
    have hviolates : ViolatesSchema loads (replies n) := by
      rw [hreply]
      exact ⟨parsed, hparsed, hraw⟩
    have hrejected : IsRejected loads (replies n) := by
      rw [hreply] at hviolates ⊢
      exact Or.inr hviolates
    refine iff_of_false id fun h => h.shape ?_ hviolates
    rcases hlast with hends | hlast
    · exact absurd (isDiscarded_judgeAttempt.mpr hrejected) hends
    · omega
  · have hattempt : judgeAttempt loads model expectedDocIds (replies n) =
        acceptResponse model expectedDocIds response items := by
      simp [hreply, judgeAttempt, hparsed, hraw]
    have hitems : acceptedItems loads (replies n) = some items := by
      simp [hreply, acceptedItems, hparsed, hraw, Except.toOption]
    have hreadable : ¬ LoadsRaises loads (replies n) := by simp [hreply, LoadsRaises, hparsed]
    have hshape : ¬ ViolatesSchema loads (replies n) := by
      simp [hreply, ViolatesSchema, hparsed, hraw]
    rw [hattempt] at houtcome
    rcases acceptResponse_cases model expectedDocIds response items with ⟨⟨item, hmem, hbad⟩, hend⟩ |
      ⟨hall, ⟨hno, hend⟩ | ⟨hmodel, result, hend, hkeeps, hcost⟩⟩
    · rw [hend] at houtcome
      rw [meetsContract_of_error hmax houtcome]
      exact iff_of_false id fun h => h.hashable items hitems item hmem hbad
    · rw [hend] at houtcome
      rw [meetsContract_of_error hmax houtcome]
      apply iff_of_true trivial
      exact ⟨hreadable, fun _ => hshape, fun _ h => Option.some.inj (hitems.symm.trans h) ▸ hall,
        fun _ h => absurd h hno⟩
    · rw [hend] at houtcome
      rw [meetsContract_of_result hmax houtcome (hcalls ▸ hitems) hkeeps, hcalls, hcost, ← hreply,
        sum_le_last_iff (f := fun attempt => billedCost model (replies attempt))
          (fun attempt => billedCost_nonneg model (replies attempt)) hfirst]
      constructor
      · intro hzero
        exact ⟨hreadable, fun _ => hshape, fun _ h => Option.some.inj (hitems.symm.trans h) ▸ hall,
          fun _ _ before hbefore hlt =>
            (billedCost_eq_zero_iff hmodel).mp (hzero before hbefore hlt)⟩
      · intro h before hbefore hlt
        rw [billedCost_eq_zero_iff hmodel]
        exact h.unbilled (by rw [hitems]; rfl) hmodel before hbefore hlt

/-- A call ends with its last attempt. -/
theorem rateQueryBatch_spec (hn : LastMade (fun attempt =>
      judgeAttempt loads model expectedDocIds (replies attempt)) 1 maxRetries.toNat n) :
    (rateQueryBatch loads model expectedDocIds maxRetries replies).calls = n ∧
      (rateQueryBatch loads model expectedDocIds maxRetries replies).outcome =
        (judgeAttempt loads model expectedDocIds (replies n)).outcome := by
  obtain ⟨hcalls, houtcome⟩ := hn.retryFrom_spec JudgeError.noAttempt
  exact ⟨Nat.succ.inj hcalls, houtcome⟩

/-- A call of the judge keeps its contract exactly when no reply that is reached does
harm. -/
theorem rateQueryBatch_meetsContract_iff (loads : String → Except LoadsError (Json F))
    (model : String) (expectedDocIds : List String) (maxRetries : ℤ) (replies : ℕ → Reply) :
    MeetsContract loads model expectedDocIds maxRetries replies
        (rateQueryBatch loads model expectedDocIds maxRetries replies) ↔
      IsHarmlessRun loads model maxRetries replies := by
  by_cases hallowed : 1 ≤ maxRetries
  · obtain ⟨n, hn⟩ := exists_lastMade
      (fun attempt => judgeAttempt loads model expectedDocIds (replies attempt)) 1
      (show 0 < maxRetries.toNat by omega)
    obtain ⟨hcalls, houtcome⟩ := rateQueryBatch_spec hn
    rw [isHarmlessRun_iff hn]
    exact meetsContract_iff_isHarmless hn hcalls houtcome
  · have hnone : rateQueryBatch loads model expectedDocIds maxRetries replies =
        ⟨0, .error .noAttempt⟩ := by
      rw [rateQueryBatch, Int.toNat_of_nonpos (by omega), retryFrom]
    rw [hnone]
    exact iff_of_false (fun h => h.documented .noAttempt rfl) fun h => hallowed h.allowed

/-- The text of a response with one rating. -/
def oneRatingText : String :=
  "\x7b\"ratings\": [\x7b\"doc_id\": \"item-0\", \"rating\": 3, \"rationale\": \"exact\"\x7d]\x7d"

/-- `json.loads` on that text; the empty text is no JSON. -/
def loadsOneRating (text : String) : Except LoadsError (Json ℚ) :=
  if text = oneRatingText then
    .ok (.dict ["ratings"] [.list [.dict ["doc_id", "rating", "rationale"]
      [.str "item-0", .int 3, .str "exact"]]])
  else .error .decode

/-- A response without content, and one rating when it is asked again. -/
def emptyThenOneRating : ℕ → Reply
  | 1 => .ok { content := none, usage := some { promptTokens := 1000, completionTokens := 2000 } }
  | _ => .ok
    { content := some oneRatingText
      usage := some { promptTokens := 1000, completionTokens := 20 } }

/-- What the response without content has cost is not reported. -/
theorem discarded_reply_not_covered :
    ¬ MeetsContract loadsOneRating "gpt-4o-2024-08-06" ["item-0"] 3 emptyThenOneRating
      (rateQueryBatch loadsOneRating "gpt-4o-2024-08-06" ["item-0"] 3 emptyThenOneRating) := by
  have hfirst : loadsOneRating "" = .error .decode := if_neg (by decide)
  have hsecond : acceptedItems loadsOneRating (emptyThenOneRating 2) =
      some [.dict ["doc_id", "rating", "rationale"] [.str "item-0", .int 3, .str "exact"]] := by
    simp [acceptedItems, emptyThenOneRating, loadsOneRating, Except.toOption, rawRatings,
      Json.get?]
  have hn : LastMade (fun attempt => judgeAttempt loadsOneRating "gpt-4o-2024-08-06" ["item-0"]
      (emptyThenOneRating attempt)) 1 (3 : ℤ).toNat 2 := by
    refine ⟨by omega, by omega, fun i hi hlt => ?_, Or.inl ?_⟩
    · obtain rfl : i = 1 := by omega
      exact isDiscarded_judgeAttempt.mpr (Or.inl hfirst)
    · rw [isDiscarded_judgeAttempt]
      intro hrejected
      rw [hrejected.facts.2] at hsecond
      cases hsecond
  obtain ⟨hcalls, houtcome⟩ := rateQueryBatch_spec hn
  rw [meetsContract_iff_isHarmless hn hcalls houtcome]
  intro h
  have hunbilled := h.unbilled (by rw [hsecond]; rfl) (by decide) 1 (by omega) (by omega)
  exact absurd hunbilled.1 (by decide)

/-! ## The judge as the worker sees it -/

def ProviderError.toOpenAi : ProviderError → OpenAiError
  | timeout => .timeout
  | connection => .connection
  | status code => .status code
  | other typeName => .other typeName

/-- A reply as the worker's model of the judge has it. -/
def completion (loads : String → Except LoadsError (Json F)) :
    Reply → Except OpenAiError (List (Option RatingItem))
  | .error e => .error e.toOpenAi
  | .ok response =>
    match loads (response.content.getD "") with
    | .error .decode => .error .unreadable
    | .error (.other typeName) => .error (.other typeName)
    | .ok parsed =>
      match rawRatings parsed with
      | none => .error .unreadable
      | some items => .ok (items.map ratingItem)

def JudgeError.toOpenAi : JudgeError → OpenAiError
  | provider e => e.toOpenAi
  | jsonDecode => .unreadable
  | schemaViolation => .unreadable
  | unknownModelPricing => .other "UnknownModelPricingError"
  | noAttempt => .other "RuntimeError"
  | other typeName => .other typeName

/-- What the worker sees of the end of a call. -/
def seenOutcome (outcome : Except JudgeError JudgeCallResult) :
    Except OpenAiError (List DocRating) :=
  (outcome.map JudgeCallResult.ratings).mapError JudgeError.toOpenAi

theorem validateItems_error {e : OpenAiError} {items : List (Option RatingItem)}
    (h : validateItems expectedDocIds items = .error e) : e = .other "TypeError" := by
  induction items with
  | nil => cases h
  | cons item items ih =>
    cases item with
    | none => exact ih h
    | some item =>
      rw [validateItems] at h
      cases hitem : validateItem expectedDocIds item with
      | error e' =>
        rw [hitem] at h
        obtain rfl := Except.error.inj h
        unfold validateItem at hitem
        split at hitem
        · exact (Except.error.inj hitem).symm
        · cases hitem
        · split at hitem <;> cases hitem
      | ok validated =>
        rw [hitem] at h
        cases hrest : validateItems expectedDocIds items with
        | error e' =>
          rw [hrest] at h
          obtain rfl := Except.error.inj h
          exact ih hrest
        | ok rest =>
          rw [hrest] at h
          cases h

/-- A reply that ends the loop, as the worker sees it. -/
theorem seenOutcome_acceptResponse (hmodel : IsPriced model) (response : Response) :
    seenOutcome (acceptResponse model expectedDocIds response items).outcome =
      validateItems expectedDocIds (items.map ratingItem) := by
  unfold acceptResponse
  cases hitems : validateItems expectedDocIds (items.map ratingItem) with
  | error e =>
    rw [validateItems_error hitems]
    rfl
  | ok ratings =>
    simp only
    rcases computeCallCost_cases model ((response.usage.map Usage.promptTokens).getD 0)
      ((response.usage.map Usage.completionTokens).getD 0) with ⟨hno, -⟩ | ⟨-, costUsd, hcost⟩
    · exact absurd hmodel hno
    · rw [hcost]
      rfl

theorem retryable_toOpenAi (e : ProviderError) : e.toOpenAi.retryable = e.retryable := by
  cases e <;> rfl

/-- Both discard a reply, or both end with it. -/
theorem completion_spec (loads : String → Except LoadsError (Json F)) (hmodel : IsPriced model)
    (expectedDocIds : List String) (reply : Reply) :
    (∃ e, judgeAttempt loads model expectedDocIds reply = .discarded e ∧
        completion loads reply = .error e.toOpenAi ∧ e.toOpenAi.retryable = true) ∨
      ¬ (judgeAttempt loads model expectedDocIds reply).IsDiscarded ∧
        seenOutcome (judgeAttempt loads model expectedDocIds reply).outcome =
          completion loads reply >>= validateItems expectedDocIds ∧
        ∀ e, completion loads reply = .error e → e.retryable = false := by
  rcases reply_cases loads reply with ⟨e, rfl⟩ | ⟨response, rfl, hdecode | ⟨typeName, hother⟩ |
    ⟨parsed, hparsed, hraw | ⟨items, hraw⟩⟩⟩
  · cases h : e.retryable with
    | true =>
      refine Or.inl ⟨.provider e, if_pos h, rfl, ?_⟩
      rw [JudgeError.toOpenAi, retryable_toOpenAi, h]
    | false =>
      have hattempt : judgeAttempt loads model expectedDocIds (.error e) = .raised (.provider e) :=
        if_neg (by rw [h]; exact Bool.false_ne_true)
      rw [hattempt]
      refine Or.inr ⟨id, rfl, fun e' he' => ?_⟩
      obtain rfl := Except.error.inj he'
      rw [retryable_toOpenAi, h]
  · refine Or.inl ⟨.jsonDecode, ?_, ?_, rfl⟩ <;>
      simp [judgeAttempt, completion, hdecode, JudgeError.toOpenAi]
  · refine Or.inr ⟨?_, ?_, fun e he => ?_⟩
    · simp [judgeAttempt, hother, Attempt.IsDiscarded]
    · simp only [judgeAttempt, completion, hother]
      rfl
    · simp only [completion, hother] at he
      obtain rfl := Except.error.inj he
      rfl
  · refine Or.inl ⟨.schemaViolation, ?_, ?_, rfl⟩ <;>
      simp [judgeAttempt, completion, hparsed, hraw, JudgeError.toOpenAi]
  · have hattempt : judgeAttempt loads model expectedDocIds (.ok response) =
        acceptResponse model expectedDocIds response items := by
      simp [judgeAttempt, hparsed, hraw]
    have hcompletion : completion loads (.ok response) = .ok (items.map ratingItem) := by
      simp [completion, hparsed, hraw]
    rw [hattempt, hcompletion]
    refine Or.inr ⟨not_isDiscarded_acceptResponse, seenOutcome_acceptResponse hmodel response,
      fun e he => ?_⟩
    cases he

/-- The worker's model of the attempts is what it sees of the loop. -/
theorem rateAttempts_eq (hmodel : IsPriced model) (attempt left : ℕ) (last : JudgeError) :
    rateAttempts (fun attempt => completion loads (replies attempt)) expectedDocIds attempt left =
      seenOutcome (retryFrom (fun attempt =>
        judgeAttempt loads model expectedDocIds (replies attempt)) attempt (left + 1)
          last).outcome := by
  induction left generalizing attempt last with
  | zero =>
    rw [rateAttempts]
    rcases completion_spec loads hmodel expectedDocIds (replies attempt) with
      ⟨e, hattempt, hcompletion, -⟩ | ⟨hends, hseen, -⟩
    · rw [retryFrom_of_discarded hattempt, hcompletion]
      rfl
    · rw [retryFrom_of_ends hends, hseen]
  | succ left ih =>
    rw [rateAttempts]
    rcases completion_spec loads hmodel expectedDocIds (replies attempt) with
      ⟨e, hattempt, hcompletion, hretryable⟩ | ⟨hends, hseen, hfatal⟩
    · rw [retryFrom_of_discarded hattempt, hcompletion, ← ih]
      simp only [hretryable, if_true]
    · rw [retryFrom_of_ends hends, hseen]
      cases hcompletion : completion loads (replies attempt) with
      | error e =>
        simp only [hfatal e hcompletion, Bool.false_eq_true, if_false]
        rfl
      | ok items => rfl

/-- The worker's model of a call is what it sees of the call. -/
theorem rateQueryBatch_eq (loads : String → Except LoadsError (Json F)) (hmodel : IsPriced model)
    (expectedDocIds : List String) (replies : ℕ → Reply) :
    Generation.rateQueryBatch (fun attempt => completion loads (replies attempt)) expectedDocIds =
      seenOutcome (rateQueryBatch loads model expectedDocIds Generation.maxRetries replies).outcome :=
  rateAttempts_eq hmodel 1 (Generation.maxRetries - 1) .noAttempt

/-- A call whose first response is discarded. -/
theorem rateQueryBatch_eq_retried : IsPriced "gpt-4o-2024-08-06" ∧
    Generation.rateQueryBatch
        (fun attempt => completion loadsOneRating (emptyThenOneRating attempt)) ["item-0"] =
      seenOutcome (rateQueryBatch loadsOneRating "gpt-4o-2024-08-06" ["item-0"]
        Generation.maxRetries emptyThenOneRating).outcome := by
  have hmodel : IsPriced "gpt-4o-2024-08-06" := by decide
  exact ⟨hmodel, rateQueryBatch_eq loadsOneRating hmodel ["item-0"] emptyThenOneRating⟩

end RelyLoop.Judgments.OpenAiJudge
