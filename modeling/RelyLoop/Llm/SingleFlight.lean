import RelyLoop.Llm.Capability
import RelyLoop.Paging.Listing

/-!
# One check for each miss

The owner of the lock checks only after it has missed the cache under the lock. So a key is
checked again only after a disturbance, however many requests miss it at once, and every answer is
a coherent result for the URL that was asked for.
-/

namespace RelyLoop.Llm

open Concurrency Python
open Paging (SampleFloat)

variable {F T Text : Type} {sha256 : String → String} {free : String → ℕ} {t : T}
  {j : CapabilityJob F Text} {key baseUrl model : String} {w w' : CacheWorld T Text}
  {e : CacheEvent} {caller : Caller} {r : CapabilityResult}

/-- A coherent result for the URL of the key. -/
def Right (sha256 : String → String) (key : String) (r : CapabilityResult) : Prop :=
  cacheKey sha256 r.baseUrl = key ∧ r.coherent = true

/-- An answer is right for its URL; without a key of the provider, or after a check that raised,
there may be none. -/
def CacheEvent.Right (sha256 : String → String) (history : List CacheEvent) : CacheEvent → Prop
  | answered baseUrl _ (some r) => Llm.Right sha256 (cacheKey sha256 baseUrl) r
  | answered baseUrl keySet none =>
    keySet = false ∨ disturbed .raised (cacheKey sha256 baseUrl) ∈ history
  | _ => True

theorem CacheEvent.Right.mono {history history' : List CacheEvent}
    (h : e.Right sha256 history) (hle : history ⊆ history') : e.Right sha256 history' := by
  cases e with
  | probed caller key => trivial
  | disturbed cause key => trivial
  | answered baseUrl keySet result =>
    cases result with
    | none => exact h.imp_right fun hraised => hle hraised
    | some r => exact h

namespace CacheWorld

/-- The task owns the lock, for the key. -/
def Owns (t : T) (key : String) (w : CacheWorld T Text) : Prop := w.recomputeLock = some (t, key)

@[simp] theorem probes_record :
    (w.record e).probes key = w.probes key + if e.isProbe key then 1 else 0 := by
  simp [probes, record, List.countP_append, List.countP_singleton]

@[simp] theorem disturbances_record :
    (w.record e).disturbances key =
      w.disturbances key + if e.isDisturbance key then 1 else 0 := by
  simp [disturbances, record, List.countP_append, List.countP_singleton]

theorem probes_record_of_not (he : e.isProbe key = false) :
    (w.record e).probes key = w.probes key := by
  simp [he]

theorem disturbances_le_record : w.disturbances key ≤ (w.record e).disturbances key := by
  simp

/-- An event that is no probe keeps the account of the key. -/
theorem bound_record {n : ℕ} (he : e.isProbe key = false)
    (h : w.probes key ≤ w.disturbances key + n) :
    (w.record e).probes key ≤ (w.record e).disturbances key + n := by
  rw [probes_record_of_not he]
  exact h.trans (Nat.add_le_add_right disturbances_le_record n)

theorem ready_record {n : ℕ} (he : e.isProbe key = false)
    (h : w.probes key < w.disturbances key + n) :
    (w.record e).probes key < (w.record e).disturbances key + n := by
  rw [probes_record_of_not he]
  exact h.trans_le (Nat.add_le_add_right disturbances_le_record n)

/-- A disturbance makes up for one probe. -/
theorem ready_of_disturbance {n : ℕ} (he : e.isProbe key = false)
    (hdisturbance : e.isDisturbance key = true) (h : w.probes key ≤ w.disturbances key + n) :
    (w.record e).probes key < (w.record e).disturbances key + n := by
  rw [probes_record_of_not he, disturbances_record, if_pos hdisturbance]
  omega

/-- Right answers stay right beside a further one. -/
theorem answers_record (hanswers : ∀ e' ∈ w.history, e'.Right sha256 w.history)
    (hright : e.Right sha256 (w.history ++ [e])) :
    ∀ e' ∈ (w.record e).history, e'.Right sha256 (w.record e).history := by
  intro e' he'
  rcases List.mem_append.mp he' with hold | hnew
  · exact (hanswers e' hold).mono (List.subset_append_left _ _)
  · rwa [List.mem_singleton.mp hnew]

variable {key' : String} {entry : Option Text}

variable [ResultCodec Text]

/-- The key needs no check, or may be checked without exceeding the disturbances. -/
def Quiet (free : String → ℕ) (key : String) (w : CacheWorld T Text) : Prop :=
  (w.result? key).isSome = true ∨ w.probes key < w.disturbances key + free key

@[simp] theorem result?_record : (w.record e).result? key = w.result? key := rfl

@[simp] theorem result?_store_self :
    (w.store key entry).result? key = entry.bind ResultCodec.validate := by
  simp [result?, store]

theorem result?_store_of_ne (h : key' ≠ key) :
    (w.store key entry).result? key' = w.result? key' := by
  simp [result?, store, Function.update_of_ne h]

end CacheWorld

open CacheWorld

variable [ResultCodec Text]

/-! ## The contract -/

/-- Every probe but one has a disturbance, what is cached is right, and so are the answers. -/
structure Coalesced (sha256 : String → String) (free : String → ℕ)
    (w : CacheWorld T Text) : Prop where
  bound : ∀ key, w.probes key ≤ w.disturbances key + free key
  quiet : ∀ key, (∃ t, w.Owns t key) ∨ w.Quiet free key
  cached : ∀ key r, w.result? key = some r → Right sha256 key r
  answers : ∀ e ∈ w.history, e.Right sha256 w.history

/-- What the other tasks leave to a task: what has happened, and as long as it owns the lock, its
key. -/
structure LeavesKey (free : String → ℕ) (t : T) (w w' : CacheWorld T Text) : Prop where
  history : w.history ⊆ w'.history
  owns : ∀ key, w.Owns t key → w'.Owns t key
  quiet : ∀ key, w.Owns t key → w.Quiet free key → w'.Quiet free key
  ready : ∀ key, w.Owns t key → w.probes key < w.disturbances key + free key →
    w'.probes key < w'.disturbances key + free key

theorem LeavesKey.rfl : LeavesKey free t w w :=
  ⟨List.Subset.refl _, fun _ h => h, fun _ _ h => h, fun _ _ h => h⟩

theorem LeavesKey.trans {w₁ w₂ w₃ : CacheWorld T Text} (h : LeavesKey free t w₁ w₂)
    (h' : LeavesKey free t w₂ w₃) : LeavesKey free t w₁ w₃ where
  history := List.Subset.trans h.history h'.history
  owns key howns := h'.owns key (h.owns key howns)
  quiet key howns hquiet := h'.quiet key (h.owns key howns) (h.quiet key howns hquiet)
  ready key howns hready := h'.ready key (h.owns key howns) (h.ready key howns hready)

/-- The contract of the tasks. -/
def capabilityContract (F : Type) (sha256 : String → String) (free : String → ℕ) :
    Contract T (CapabilityJob F Text) (CacheWorld T Text) (CacheOp Text) where
  inv := Coalesced sha256 free
  change _ _ _ := True
  rely := LeavesKey free
  cond _ _ _ := True
  rely_refl _ _ := LeavesKey.rfl
  rely_trans _ _ _ _ := LeavesKey.trans

/-! ## What the operations guarantee -/

/-- Nothing is guaranteed more easily than by doing nothing. -/
theorem guarantees_rfl (hinv : Coalesced sha256 free w) :
    (capabilityContract F sha256 free).Guarantees t j w w :=
  ⟨hinv, trivial, fun _ _ => LeavesKey.rfl⟩

theorem quiet_record (he : e.isProbe key = false) (h : w.Quiet free key) :
    (w.record e).Quiet free key :=
  h.imp id (ready_record he)

/-- An event that is no probe. -/
theorem guarantees_record (hinv : Coalesced sha256 free w) (he : ∀ key, e.isProbe key = false)
    (hright : e.Right sha256 (w.history ++ [e])) :
    (capabilityContract F sha256 free).Guarantees t j w (w.record e) := by
  refine ⟨⟨fun key => ?_, fun key => ?_, hinv.cached, ?_⟩, trivial, fun t' _ => ?_⟩
  · exact bound_record (he key) (hinv.bound key)
  · exact (hinv.quiet key).imp id (quiet_record (he key))
  · exact answers_record hinv.answers hright
  · exact ⟨List.subset_append_left _ _, fun _ h => h, fun key _ => quiet_record (he key),
      fun key _ => ready_record (he key)⟩

/-- An entry that leaves a result where there was one. -/
theorem guarantees_store {entry : Option Text} (hinv : Coalesced sha256 free w)
    (hkeeps : (w.result? key).isSome = true → (entry.bind ResultCodec.validate).isSome = true)
    (hright : ∀ r, entry.bind ResultCodec.validate = some r → Right sha256 key r) :
    (capabilityContract F sha256 free).Guarantees t j w (w.store key entry) := by
  have hquiet : ∀ key', w.Quiet free key' → (w.store key entry).Quiet free key' := by
    intro key' h
    refine h.imp (fun hsome => ?_) id
    by_cases hne : key' = key
    · subst hne
      rw [result?_store_self]
      exact hkeeps hsome
    · rwa [result?_store_of_ne hne]
  refine ⟨⟨hinv.bound, fun key' => (hinv.quiet key').imp id (hquiet key'), fun key' r hr => ?_,
    hinv.answers⟩, trivial, fun t' _ => ?_⟩
  · by_cases hne : key' = key
    · subst hne
      rw [result?_store_self] at hr
      exact hright r hr
    · rw [result?_store_of_ne hne] at hr
      exact hinv.cached key' r hr
  · exact ⟨List.Subset.refl _, fun _ h => h, fun key' _ => hquiet key', fun _ _ h => h⟩

/-- An entry that is lost. -/
theorem guarantees_lost {entry : Option Text} (hinv : Coalesced sha256 free w)
    (hnone : entry.bind ResultCodec.validate = none) :
    (capabilityContract F sha256 free).Guarantees t j w
      ((w.store key entry).record (.disturbed .lost key)) := by
  have hprobe : ∀ key', (CacheEvent.disturbed .lost key).isProbe key' = false := fun _ => rfl
  have hready : ∀ key', w.Quiet free key' →
      ((w.store key entry).record (.disturbed .lost key)).Quiet free key' := by
    intro key' h
    by_cases hne : key' = key
    · subst hne
      exact Or.inr (ready_of_disturbance rfl (beq_self_eq_true _) (hinv.bound key'))
    · refine quiet_record (hprobe key') (h.imp (fun hsome => ?_) id)
      rwa [result?_store_of_ne hne]
  refine ⟨⟨fun key' => ?_, fun key' => (hinv.quiet key').imp id (hready key'), fun key' r hr => ?_,
    ?_⟩, trivial, fun t' _ => ?_⟩
  · exact bound_record (hprobe key') (hinv.bound key')
  · rw [result?_record] at hr
    by_cases hne : key' = key
    · subst hne
      rw [result?_store_self, hnone] at hr
      cases hr
    · rw [result?_store_of_ne hne] at hr
      exact hinv.cached key' r hr
  · exact answers_record hinv.answers trivial
  · exact ⟨List.subset_append_left _ _, fun _ h => h, fun key' _ => hready key',
      fun key' _ => ready_record (hprobe key')⟩

/-- Taking a free lock leaves its key quiet. -/
theorem guarantees_acquire (hinv : Coalesced sha256 free w) (hfree : w.recomputeLock = none) :
    (capabilityContract F sha256 free).Guarantees t j w { w with recomputeLock := some (t, key) } ∧
      w.Quiet free key := by
  have hquiet : ∀ key', w.Quiet free key' := by
    intro key'
    rcases hinv.quiet key' with ⟨t', howns⟩ | hquiet
    · rw [Owns, hfree] at howns
      cases howns
    · exact hquiet
  refine ⟨⟨⟨hinv.bound, fun key' => Or.inr (hquiet key'), hinv.cached, hinv.answers⟩, trivial,
    fun t' _ => ?_⟩, hquiet key⟩
  have hnone : ∀ key', ¬w.Owns t' key' := by
    intro key' howns
    rw [Owns, hfree] at howns
    cases howns
  exact ⟨List.Subset.refl _, fun key' h => absurd h (hnone key'),
    fun key' h => absurd h (hnone key'), fun key' h => absurd h (hnone key')⟩

/-- The owner checks a key whose probes do not exceed its disturbances. -/
theorem guarantees_probe (hinv : Coalesced sha256 free w) (howns : w.Owns t key)
    (hready : w.probes key < w.disturbances key + free key) :
    (capabilityContract F sha256 free).Guarantees t j w (w.record (.probed .request key)) := by
  have hother : ∀ key', key' ≠ key → (CacheEvent.probed .request key).isProbe key' = false :=
    fun key' hne => beq_false_of_ne (Ne.symm hne)
  have hdisturbance : ∀ key', (CacheEvent.probed .request key).isDisturbance key' = false :=
    fun _ => rfl
  refine ⟨⟨fun key' => ?_, fun key' => ?_, hinv.cached, ?_⟩, trivial, fun t' hne => ?_⟩
  · have hbound := hinv.bound key'
    rw [probes_record, disturbances_record, hdisturbance]
    by_cases hkey : key' = key
    · subst hkey
      simpa [CacheEvent.isProbe] using Nat.succ_le_of_lt hready
    · simpa [hother key' hkey] using hbound
  · by_cases hkey : key' = key
    · subst hkey
      exact Or.inl ⟨t, howns⟩
    · exact (hinv.quiet key').imp id (quiet_record (hother key' hkey))
  · exact answers_record hinv.answers trivial
  · have hnone : ∀ key', ¬w.Owns t' key' := by
      intro key' howns'
      rw [Owns, howns, Option.some.injEq, Prod.mk.injEq] at howns'
      exact hne howns'.1.symm
    exact ⟨List.subset_append_left _ _, fun _ h => absurd h (hnone _),
      fun _ h => absurd h (hnone _), fun _ h => absurd h (hnone _)⟩

section Tasks

variable [DecidableEq T]

omit [ResultCodec Text] in
theorem owns_releaseLock {t' : T} (hne : t' ≠ t) (h : w.Owns t' key) :
    (releaseLock t w).Owns t' key := by
  rw [Owns] at h ⊢
  simp [releaseLock, h, hne]

/-- The lock is given up when its key is quiet. -/
theorem guarantees_releaseLock (hinv : Coalesced sha256 free w) (howns : w.Owns t key)
    (hquiet : w.Quiet free key) :
    (capabilityContract F sha256 free).Guarantees t j w (releaseLock t w) := by
  refine ⟨⟨hinv.bound, fun key' => ?_, hinv.cached, hinv.answers⟩, trivial, fun t' hne =>
    ⟨List.Subset.refl _, fun _ => owns_releaseLock hne, fun _ _ h => h, fun _ _ h => h⟩⟩
  rcases hinv.quiet key' with ⟨t', howns'⟩ | hquiet'
  · rw [Owns, howns, Option.some.injEq, Prod.mk.injEq] at howns'
    obtain ⟨-, rfl⟩ := howns'
    exact Or.inr hquiet
  · exact Or.inr hquiet'

/-- A request that is cancelled gives up the lock, and disturbs its key. -/
theorem guarantees_cancel (hinv : Coalesced sha256 free w) :
    (capabilityContract F sha256 free).Guarantees t j w (cancel t w) := by
  unfold cancel
  split
  · rename_i owner key hlock
    split
    · rename_i howner
      subst howner
      have hevent : ∀ key', (CacheEvent.disturbed .cancelled key).isProbe key' = false :=
        fun _ => rfl
      have hrecord : (capabilityContract F sha256 free).Guarantees owner j w
          (w.record (.disturbed .cancelled key)) :=
        guarantees_record hinv hevent trivial
      have hquiet : (w.record (.disturbed .cancelled key)).Quiet free key :=
        Or.inr (ready_of_disturbance rfl (beq_self_eq_true key) (hinv.bound key))
      have hrelease : (capabilityContract F sha256 free).Guarantees owner j
          (w.record (.disturbed .cancelled key))
          (releaseLock owner (w.record (.disturbed .cancelled key))) :=
        guarantees_releaseLock hrecord.inv hlock hquiet
      exact ⟨hrelease.inv, trivial, fun t' hne =>
        (hrecord.rely t' hne).trans (hrelease.rely t' hne)⟩
    · exact guarantees_rfl hinv
  · exact guarantees_rfl hinv

/-! ## The code -/

/-- The first probe has a status code only when it fails, and then it is one of an error. -/
theorem statusCode_of_probe {answer : HttpAnswer F} {models : Bool × Option ℕ}
    (h : probeModelsEndpoint answer = .ok models) :
    (models.1 = true → models.2 = none) ∧ (models.2.all fun code => 400 ≤ code) = true := by
  cases answer with
  | httpError =>
    obtain rfl := Except.ok.inj h
    exact ⟨fun _ => rfl, rfl⟩
  | raises => cases h
  | response statusCode body =>
    obtain rfl := Except.ok.inj h
    split
    · rename_i hcode
      exact ⟨fun htrue => (Bool.false_ne_true htrue).elim, decide_eq_true hcode⟩
    · exact ⟨fun _ => rfl, rfl⟩

variable [PyFloat F]

theorem safe_ofProbe {α : Type} {I : CacheWorld T Text → Prop} (hw : I w)
    (answer : Except ProbeError α) :
    Safe (capabilityTasks (F := F) sha256 T) (capabilityContract F sha256 free) t j
      (fun value w => I w ∧ answer = .ok value) (fun _ => I) (ofProbe answer) w := by
  cases answer with
  | ok value => exact ⟨hw, rfl⟩
  | error e => exact hw

/-- A probe changes nothing. -/
theorem safe_postProbe {I : CacheWorld T Text → Prop}
    (hI : ∀ w w', LeavesKey free t w w' → I w → I w') (hw : I w) (answer : Except ProbeError Bool) :
    Safe (capabilityTasks (F := F) sha256 T) (capabilityContract F sha256 free) t j
      (fun status w => I w ∧ status ≠ .untested) (fun _ => I) (postProbe answer) w := by
  intro w₁ hrely hinv _ w₂ _ hexec
  obtain ⟨rfl, -⟩ := Prod.mk.inj (Option.some.inj hexec)
  refine ⟨guarantees_rfl hinv, ?_⟩
  simp only [Program.done_bind]
  refine Safe.seq (safe_ofProbe (hI _ _ hrely hw) answer) fun passed w₃ h => ⟨h.1, ?_⟩
  cases passed <;> exact ProbeStatus.noConfusion

theorem safe_probeCompletions {I : CacheWorld T Text → Prop}
    (hI : ∀ w w', LeavesKey free t w w' → I w → I w') (hw : I w) (endpoint : Endpoint F) :
    Safe (capabilityTasks sha256 T) (capabilityContract F sha256 free) t j
      (fun s w => I w ∧ s.1 ≠ .untested ∧ s.2.1 ≠ .untested ∧ s.2.2 ≠ .untested) (fun _ => I)
      (probeCompletions endpoint) w := by
  refine Safe.seq (safe_postProbe hI hw _) fun chat w₁ hchat => ?_
  refine Safe.seq (safe_postProbe hI hchat.1 _) fun functions w₂ hfunctions => ?_
  refine Safe.seq (safe_postProbe hI hfunctions.1 _) fun structured w₃ hstructured => ?_
  exact ⟨hstructured.1, hchat.2, hfunctions.2, hstructured.2⟩

/-- The statuses fit the first probe. -/
theorem safe_laterProbes {I : CacheWorld T Text → Prop}
    (hI : ∀ w w', LeavesKey free t w w' → I w → I w') (hw : I w) (baseUrl model : String)
    (endpoint : Endpoint F) {models : Bool × Option ℕ}
    (hmodels : probeModelsEndpoint endpoint.models = .ok models) :
    Safe (capabilityTasks sha256 T) (capabilityContract F sha256 free) t j
      (fun later w => I w ∧
        (capabilityResult baseUrl model endpoint.testedAt models later).coherent = true)
      (fun _ => I) (laterProbes models.1 endpoint) w := by
  obtain ⟨hnone, hcode⟩ := statusCode_of_probe hmodels
  rw [laterProbes]
  split
  · rename_i hpassed
    refine (safe_probeCompletions hI hw endpoint).post fun later w h => ⟨h.1, ?_⟩
    simp [CapabilityResult.coherent, capabilityResult, h.2, hpassed, hnone hpassed]
  · rename_i hfailed
    refine ⟨hw, ?_⟩
    simpa [CapabilityResult.coherent, capabilityResult, hfailed] using hcode

/-- The check of the owner of the lock, or of the startup, which owns nothing. -/
theorem safe_checkCapabilities (endpoint : Endpoint F)
    (hready : caller = .request → w.Owns t (cacheKey sha256 baseUrl) ∧
      w.probes (cacheKey sha256 baseUrl) <
        w.disturbances (cacheKey sha256 baseUrl) + free (cacheKey sha256 baseUrl)) :
    Safe (capabilityTasks sha256 T) (capabilityContract F sha256 free) t j
      (fun r w => (caller = .request → w.Owns t (cacheKey sha256 baseUrl) ∧
        w.Quiet free (cacheKey sha256 baseUrl)) ∧ Right sha256 (cacheKey sha256 baseUrl) r)
      (fun _ w => caller = .request → w.Owns t (cacheKey sha256 baseUrl))
      (checkCapabilities sha256 caller baseUrl model endpoint) w := by
  rw [checkCapabilities]
  intro w₁ hrely hinv _ w₂ _ hexec
  obtain ⟨rfl, -⟩ := Prod.mk.inj (Option.some.inj hexec)
  have howns : caller = .request →
      (w₁.record (.probed caller (cacheKey sha256 baseUrl))).Owns t (cacheKey sha256 baseUrl) :=
    fun h => hrely.owns _ (hready h).1
  constructor
  · cases caller with
    | startup => exact guarantees_record hinv (fun _ => rfl) trivial
    | request =>
      obtain ⟨howner, hle⟩ := hready rfl
      exact guarantees_probe hinv (hrely.owns _ howner) (hrely.ready _ howner hle)
  · have hI : ∀ w w' : CacheWorld T Text, LeavesKey free t w w' →
        (caller = .request → w.Owns t (cacheKey sha256 baseUrl)) →
        caller = .request → w'.Owns t (cacheKey sha256 baseUrl) :=
      fun _ _ hrely h hcaller => hrely.owns _ (h hcaller)
    simp only [Program.done_bind]
    refine Safe.seq (safe_ofProbe howns _) fun models w₂ hmodels => ?_
    refine Safe.seq (safe_laterProbes hI hmodels.1 baseUrl model endpoint hmodels.2)
      fun later w₃ h => ?_
    intro w₄ hrely₄ hinv₄ _ w₅ _ hexec
    obtain ⟨rfl, -⟩ := Prod.mk.inj (Option.some.inj hexec)
    have howns₄ := fun hcaller => hrely₄.owns _ (h.1 hcaller)
    split
    · exact ⟨guarantees_record hinv₄ (fun _ => rfl) trivial,
        fun hcaller => ⟨howns₄ hcaller,
          Or.inr (ready_of_disturbance rfl (beq_self_eq_true _) (hinv₄.bound _))⟩, rfl, h.2⟩
    · refine ⟨guarantees_store hinv₄ (fun _ => ?_) fun r hr => ?_,
        fun hcaller => ⟨howns₄ hcaller, Or.inl ?_⟩, rfl, h.2⟩
      · rw [Option.bind_some, ResultCodec.validate_dump]
        rfl
      · rw [Option.bind_some, ResultCodec.validate_dump] at hr
        obtain rfl := Option.some.inj hr
        exact ⟨rfl, h.2⟩
      · rw [result?_store_self, Option.bind_some, ResultCodec.validate_dump]
        rfl

/-- What a request ends with. -/
def Answered (sha256 : String → String) (baseUrl : String) (result : Option CapabilityResult)
    (w : CacheWorld T Text) : Prop :=
  match result with
  | some r => Right sha256 (cacheKey sha256 baseUrl) r
  | none => .disturbed .raised (cacheKey sha256 baseUrl) ∈ w.history

/-- A reading answers what is cached, or finds nothing there, or is a disturbance. -/
theorem safe_readCapabilityResult {raises : Bool}
    {Q : Option CapabilityResult → CacheWorld T Text → Prop}
    (hread : ∀ w', LeavesKey free t w w' → Coalesced sha256 free w' →
      Q (w'.result? (cacheKey sha256 baseUrl)) w')
    (hraises : ∀ w', LeavesKey free t w w' → Coalesced sha256 free w' →
      Q none (w'.record (.disturbed .readFailed (cacheKey sha256 baseUrl)))) :
    Safe (capabilityTasks (F := F) sha256 T) (capabilityContract F sha256 free) t j Q
      (fun _ _ => False) (readCapabilityResult sha256 baseUrl raises) w := by
  intro w₁ hrely hinv _ w₂ raw hexec
  cases raises with
  | true =>
    obtain ⟨rfl, rfl⟩ := Prod.mk.inj (Option.some.inj hexec)
    exact ⟨guarantees_record hinv (fun _ => rfl) trivial, hraises w₁ hrely hinv⟩
  | false =>
    obtain ⟨rfl, rfl⟩ := Prod.mk.inj (Option.some.inj hexec)
    exact ⟨guarantees_rfl hinv, hread w₁ hrely hinv⟩

/-- The check of a key that is ready for it. -/
theorem safe_checkOrWarn (r : CapabilityRequest F) (howns : w.Owns t (cacheKey sha256 r.baseUrl))
    (hready : w.probes (cacheKey sha256 r.baseUrl) <
      w.disturbances (cacheKey sha256 r.baseUrl) + free (cacheKey sha256 r.baseUrl)) :
    Safe (capabilityTasks sha256 T) (capabilityContract F sha256 free) t j
      (fun result w => (w.Owns t (cacheKey sha256 r.baseUrl) ∧
        w.Quiet free (cacheKey sha256 r.baseUrl)) ∧ Answered sha256 r.baseUrl result w)
      (fun _ _ => False) (checkOrWarn sha256 r) w := by
  refine Safe.handle (Safe.bind ?_)
  refine Safe.mono (fun result w' h => ⟨h.1 rfl, h.2⟩) (fun e w' h => ?_)
    (safe_checkCapabilities r.endpoint fun _ => ⟨howns, hready⟩)
  intro w₁ hrely hinv _ w₂ _ hexec
  obtain ⟨rfl, -⟩ := Prod.mk.inj (Option.some.inj hexec)
  refine ⟨guarantees_record hinv (fun _ => rfl) trivial, ⟨hrely.owns _ (h rfl), Or.inr ?_⟩, ?_⟩
  · exact ready_of_disturbance rfl (beq_self_eq_true _) (hinv.bound _)
  · exact List.mem_append_right _ (List.mem_singleton_self _)

/-- Under the lock. -/
theorem safe_recompute (r : CapabilityRequest F) (howns : w.Owns t (cacheKey sha256 r.baseUrl))
    (hquiet : w.Quiet free (cacheKey sha256 r.baseUrl)) :
    Safe (capabilityTasks sha256 T) (capabilityContract F sha256 free) t j
      (fun result w => (w.Owns t (cacheKey sha256 r.baseUrl) ∧
        w.Quiet free (cacheKey sha256 r.baseUrl)) ∧ Answered sha256 r.baseUrl result w)
      (fun _ _ => False) (recompute sha256 r) w := by
  refine Safe.bind ((safe_readCapabilityResult (fun w' hrely hinv => ?_)
    fun w' hrely hinv => ?_).mono (fun _ _ h => h) fun _ _ h => h)
  · have howns' := hrely.owns _ howns
    have hquiet' := hrely.quiet _ howns hquiet
    cases hresult : w'.result? (cacheKey sha256 r.baseUrl) with
    | some cached => exact ⟨⟨howns', hquiet'⟩, hinv.cached _ _ hresult⟩
    | none =>
      refine safe_checkOrWarn r howns' (hquiet'.resolve_left ?_)
      rw [hresult]
      exact Bool.false_ne_true
  · exact safe_checkOrWarn r (hrely.owns _ howns)
      (ready_of_disturbance rfl (beq_self_eq_true _) (hinv.bound _))

/-- A request answers right, or without a key of the provider not at all. -/
def Ends (sha256 : String → String) (r : CapabilityRequest F) (result : Option CapabilityResult)
    (w : CacheWorld T Text) : Prop :=
  (result = none ∧ r.keyMissing = true) ∨ Answered sha256 r.baseUrl result w

theorem safe_recomputeUnderLock (r : CapabilityRequest F) :
    Safe (capabilityTasks sha256 T) (capabilityContract F sha256 free) t j (Ends sha256 r)
      (fun _ _ => False) (recomputeUnderLock sha256 r) w := by
  rw [recomputeUnderLock]
  split
  · rename_i hkey
    exact Or.inl ⟨rfl, hkey⟩
  · intro w₁ _ hinv _ w₂ _ hexec
    cases hlock : w₁.recomputeLock with
    | some owner =>
      simp only [capabilityTasks, execCache, hlock] at hexec
      cases hexec
    | none =>
      simp only [capabilityTasks, execCache, hlock] at hexec
      obtain ⟨rfl, -⟩ := Prod.mk.inj (Option.some.inj hexec)
      obtain ⟨hguar, hquiet⟩ := guarantees_acquire hinv hlock
      have howns : CacheWorld.Owns t (cacheKey sha256 r.baseUrl)
          { w₁ with recomputeLock := some (t, cacheKey sha256 r.baseUrl) } := rfl
      refine ⟨hguar, ?_⟩
      simp only [Program.done_bind]
      refine Safe.seq (safe_recompute r howns hquiet) fun result w₃ h => ?_
      intro w₄ hrely hinv₄ _ w₅ _ hexec₅
      obtain ⟨rfl, -⟩ := Prod.mk.inj (Option.some.inj hexec₅)
      obtain ⟨⟨howns₃, hquiet₃⟩, hanswered⟩ := h
      refine ⟨guarantees_releaseLock hinv₄ (hrely.owns _ howns₃)
        (hrely.quiet _ howns₃ hquiet₃), Or.inr ?_⟩
      cases result with
      | some r => exact hanswered
      | none => exact hrely.history hanswered

theorem safe_readOrRecompute (r : CapabilityRequest F) :
    Safe (capabilityTasks sha256 T) (capabilityContract F sha256 free) t j (Ends sha256 r)
      (fun _ _ => False) (readOrRecomputeCapabilityResult sha256 r) w := by
  refine Safe.bind (safe_readCapabilityResult (fun w' hrely hinv => ?_)
    fun w' _ _ => safe_recomputeUnderLock r)
  cases hresult : w'.result? (cacheKey sha256 r.baseUrl) with
  | some cached => exact Or.inr (hinv.cached _ _ hresult)
  | none => exact safe_recomputeUnderLock r

theorem capabilityContract_met : (capabilityContract F sha256 free :
    Contract T (CapabilityJob F Text) (CacheWorld T Text) (CacheOp Text)).Met
      (capabilityTasks sha256 T) where
  reset _ _ _ hinv := guarantees_cancel hinv
  code t j w hinv hadm := by
    cases j with
    | request r =>
      refine Safe.seq ((safe_readOrRecompute r).mono (fun _ _ h => h) fun _ _ h => h.elim)
        fun result w₁ h => ?_
      intro w₂ hrely hinv₂ _ w₃ _ hexec
      obtain ⟨rfl, -⟩ := Prod.mk.inj (Option.some.inj hexec)
      refine ⟨guarantees_record hinv₂ (fun _ => rfl) ?_, trivial⟩
      rcases h with ⟨rfl, hkey⟩ | hanswered
      · exact Or.inl (by rw [hkey]; rfl)
      · cases result with
        | some r => exact hanswered
        | none => exact Or.inr (List.mem_append_left _ (hrely.history hanswered))
    | startup r =>
      change Safe _ _ _ _ _ _ (runCapabilityCheckBackground sha256 r) _
      rw [runCapabilityCheckBackground]
      split
      · trivial
      · refine Safe.handle (Safe.bind ?_)
        refine Safe.mono (fun _ _ _ => trivial) (fun _ _ _ => trivial)
          (safe_checkCapabilities r.endpoint fun h => by cases h)
    | outside key entry =>
      have hhonest : (entry.bind ResultCodec.validate).all (fun r =>
          decide (cacheKey sha256 r.baseUrl = key) && r.coherent) = true := hadm
      intro w₁ _ hinv₁ _ w₂ _ hexec
      obtain ⟨rfl, -⟩ := Prod.mk.inj (Option.some.inj hexec)
      refine ⟨?_, trivial⟩
      rw [result?_store_self]
      cases hentry : entry.bind ResultCodec.validate with
      | some r =>
        rw [hentry] at hhonest
        obtain ⟨hkey, hcoherent⟩ := Bool.and_eq_true_iff.mp hhonest
        simp only [Option.isNone_some, Bool.and_false, Bool.false_eq_true, if_false]
        refine guarantees_store hinv₁ (fun _ => by rw [hentry]; rfl) fun r' hr' => ?_
        rw [hentry] at hr'
        obtain rfl := Option.some.inj hr'
        exact ⟨of_decide_eq_true hkey, hcoherent⟩
      | none =>
        simp only [Option.isNone_none, Bool.and_true]
        split
        · exact guarantees_lost hinv₁ hentry
        · rename_i hsome
          refine guarantees_store hinv₁ (fun h => absurd h hsome) fun r' hr' => ?_
          rw [hentry] at hr'
          cases hr'

/-! ## Runs -/

/-- A worker process that starts beside what Redis holds. -/
def startWorld (T : Type) (entries : String → Option Text) : CacheWorld T Text where
  entries := entries
  recomputeLock := none
  history := []

/-- One check is free where nothing is cached at the start. -/
def freeProbes (entries : String → Option Text) (key : String) : ℕ :=
  if ((entries key).bind ResultCodec.validate).isSome then 0 else 1

omit [DecidableEq T] in
theorem coalesced_startWorld {entries : String → Option Text}
    (hright : ∀ key r, (entries key).bind ResultCodec.validate = some r → Right sha256 key r) :
    Coalesced sha256 (freeProbes entries) (startWorld T entries) where
  bound _ := Nat.zero_le _
  quiet key := by
    refine Or.inr ?_
    by_cases hcached : ((entries key).bind ResultCodec.validate).isSome = true
    · exact Or.inl hcached
    · refine Or.inr ?_
      rw [freeProbes, if_neg hcached]
      exact Nat.zero_lt_succ _
  cached := hright
  answers _ he := by cases he

variable {entries : String → Option Text}
  {c : Config T (CapabilityJob F Text) (CacheWorld T Text) (CacheOp Text) CacheOp.Res ProbeError}

theorem coalesced_of_run
    (hright : ∀ key r, (entries key).bind ResultCodec.validate = some r → Right sha256 key r)
    (hrun : (capabilityTasks sha256 T).Run (fun _ _ _ => True)
      (System.idle (startWorld T entries)) c) :
    Coalesced sha256 (freeProbes entries) c.world :=
  (capabilityContract_met.run (Contract.sound_idle (coalesced_startWorld hright)) hrun).1

/-- However many requests run beside one another, they check a key at most once for each
disturbance of it, and once more when nothing was cached for it at the start. -/
theorem probes_le_disturbances
    (hright : ∀ key r, (entries key).bind ResultCodec.validate = some r → Right sha256 key r)
    (hrun : (capabilityTasks sha256 T).Run (fun _ _ _ => True)
      (System.idle (startWorld T entries)) c) (key : String) :
    c.world.probes key ≤ c.world.disturbances key + freeProbes entries key :=
  (coalesced_of_run hright hrun).bound key

/-- Every answer of a run is a coherent result for its URL, or there is none, and then the
provider has no key or a check of the URL has raised. -/
theorem answers_right_of_run
    (hright : ∀ key r, (entries key).bind ResultCodec.validate = some r → Right sha256 key r)
    (hrun : (capabilityTasks sha256 T).Run (fun _ _ _ => True)
      (System.idle (startWorld T entries)) c) {baseUrl : String} {keySet : Bool}
    {result : Option CapabilityResult} (h : .answered baseUrl keySet result ∈ c.world.history) :
    match result with
    | some r => cacheKey sha256 r.baseUrl = cacheKey sha256 baseUrl ∧ r.coherent = true
    | none => keySet = false ∨
        .disturbed .raised (cacheKey sha256 baseUrl) ∈ c.world.history := by
  have hanswer := (coalesced_of_run hright hrun).answers _ h
  cases result with
  | some r => exact hanswer
  | none => exact hanswer

end Tasks

/-! ## A burst of requests -/

/-- Results are stored as they are. -/
instance : ResultCodec CapabilityResult where
  dump := id
  validate := some
  validate_dump _ := rfl

/-- An empty Redis. -/
def nothingCached : String → Option CapabilityResult := fun _ => none

/-- A request for an endpoint that cannot be reached. -/
def burstRequest : CapabilityRequest SampleFloat where
  baseUrl := "http://llm/v1"
  apiKey := some "key"
  model := "m"
  endpoint :=
    { models := .httpError
      chat := .httpError
      functions := .httpError
      structured := .httpError
      testedAt := 0 }

/-- Two requests miss the cache, and one of them checks. -/
def burst : List (Action ℕ (CapabilityJob SampleFloat CapabilityResult)) :=
  [.start 0 (.request burstRequest), .start 1 (.request burstRequest), .call 0, .call 1] ++
    List.replicate 6 (.call 0) ++ List.replicate 4 (.call 1)

/-- Its end. -/
def burstEnd : Option (Config ℕ (CapabilityJob SampleFloat CapabilityResult)
    (CacheWorld ℕ CapabilityResult) (CacheOp CapabilityResult) CacheOp.Res ProbeError) :=
  ((capabilityTasks id ℕ).guard fun _ _ _ => true).schedule
    (System.idle (startWorld ℕ nothingCached)) burst

/-- The key of the endpoint. -/
def burstKey : String := cacheKey id "http://llm/v1"

/-- What the check finds. -/
def burstResult : CapabilityResult :=
  capabilityResult burstRequest.baseUrl burstRequest.model 0 (false, none)
    (.untested, .untested, .untested)

/-- What both requests are answered. -/
def burstAnswer : CacheEvent := .answered burstRequest.baseUrl true (some burstResult)

theorem burstEnd_eq : burstEnd.map (fun c =>
    (c.world.probes burstKey, decide (burstAnswer ∈ c.world.history))) = some (1, true) := by
  rfl

/-- Two requests that miss at once check once, which is what is free. -/
theorem burst_probes_le : ∃ c, burstEnd = some c ∧ c.world.probes burstKey = 1 ∧
    c.world.probes burstKey ≤
      c.world.disturbances burstKey + freeProbes nothingCached burstKey := by
  obtain ⟨c, hc, hprobes⟩ := Option.map_eq_some_iff.mp burstEnd_eq
  exact ⟨c, hc, (Prod.mk.inj hprobes).1, probes_le_disturbances (fun _ _ h => by cases h)
    (System.run_of_guarded _ (fun _ _ _ _ => trivial) hc) burstKey⟩

/-- Both are answered. -/
theorem burst_answers_right : ∃ c, burstEnd = some c ∧ burstAnswer ∈ c.world.history ∧
    cacheKey id burstResult.baseUrl = burstKey ∧ burstResult.coherent = true := by
  obtain ⟨c, hc, hanswered⟩ := Option.map_eq_some_iff.mp burstEnd_eq
  have hmem := of_decide_eq_true (Prod.mk.inj hanswered).2
  exact ⟨c, hc, hmem, answers_right_of_run (fun _ _ h => by cases h)
    (System.run_of_guarded _ (fun _ _ _ _ => trivial) hc) hmem⟩

end RelyLoop.Llm
