import Mathlib.Logic.Function.Basic
import Mathlib.Logic.Relation

/-!
# Programs run by concurrent tasks

A task runs a tree of operations on a shared world. Every operation is atomic
and answers with a value that the rest of the program may branch on; between
two operations any other task may act. Exceptions are part of the tree, so a
handler of the modelled source is a handler here.
-/

/-!
## Runs of events

A state that events change, one at a time. A run is a sequence of events that all meet a condition
on the state before the event.
-/

namespace RelyLoop.Concurrency

variable {S E : Type*} {step : S → E → S} {cond : S → E → Prop} {s s' : S}

/-- A run whose events all meet `cond`. -/
def EventRun (step : S → E → S) (cond : S → E → Prop) : S → S → Prop :=
  Relation.ReflTransGen fun s s' => ∃ e, cond s e ∧ s' = step s e

/-- What every event of a run keeps holds at its end. -/
theorem EventRun.keeps {P : S → Prop} (h : ∀ s e, P s → cond s e → P (step s e)) (hs : P s)
    (hrun : EventRun step cond s s') : P s' := by
  induction hrun with
  | refl => exact hs
  | tail _ hstep ih =>
    obtain ⟨e, he, rfl⟩ := hstep
    exact h _ e ih he

/-- Events that meet the condition in every state are a run. -/
theorem eventRun_foldl (step : S → E → S) (events : List E) (h : ∀ s, ∀ e ∈ events, cond s e)
    (s : S) : EventRun step cond s (events.foldl step s) := by
  induction events generalizing s with
  | nil => exact Relation.ReflTransGen.refl
  | cons e events ih =>
    have hfirst : cond s e := h s e List.mem_cons_self
    exact Relation.ReflTransGen.head ⟨e, hfirst, rfl⟩
      (ih (fun s e he => h s e (List.mem_cons_of_mem _ he)) (step s e))

end RelyLoop.Concurrency

/-! ## Programs -/

namespace RelyLoop.Concurrency

/-- A program over the operations `Op`, whose answers have the types `Res`. It
ends with a value of type `α` or with an exception of type `ε`. -/
inductive Program (Op : Type) (Res : Op → Type) (ε α : Type) : Type where
  | done (a : α)
  | raise (e : ε)
  | call (o : Op) (next : Res o → Program Op Res ε α)

namespace Program

variable {Op : Type} {Res : Op → Type} {ε α β : Type}

/-- Sequencing: an exception of the first program skips the second. -/
def bind : Program Op Res ε α → (α → Program Op Res ε β) → Program Op Res ε β
  | done a, f => f a
  | raise e, _ => raise e
  | call o next, f => call o (fun r => (next r).bind f)

/-- Running `handler` on the exception that ends the program, if any. -/
def handle : Program Op Res ε α → (ε → Program Op Res ε α) → Program Op Res ε α
  | done a, _ => done a
  | raise e, handler => handler e
  | call o next, handler => call o (fun r => (next r).handle handler)

/-- A single operation. -/
def perform (o : Op) : Program Op Res ε (Res o) := call o done

instance : Monad (Program Op Res ε) where
  pure := done
  bind := bind

instance : MonadExcept ε (Program Op Res ε) where
  throw := raise
  tryCatch := handle

@[simp] theorem pure_eq (a : α) : (pure a : Program Op Res ε α) = done a := rfl

@[simp] theorem bind_eq (p : Program Op Res ε α) (f : α → Program Op Res ε β) :
    p >>= f = p.bind f := rfl

@[simp] theorem throw_eq (e : ε) : (throw e : Program Op Res ε α) = raise e := rfl

@[simp] theorem tryCatch_eq (p : Program Op Res ε α) (handler : ε → Program Op Res ε α) :
    tryCatch p handler = p.handle handler := rfl

@[simp] theorem done_bind (a : α) (f : α → Program Op Res ε β) : (done a).bind f = f a := rfl

@[simp] theorem raise_bind (e : ε) (f : α → Program Op Res ε β) :
    (raise e : Program Op Res ε α).bind f = raise e := rfl

@[simp] theorem call_bind (o : Op) (next : Res o → Program Op Res ε α)
    (f : α → Program Op Res ε β) :
    (call o next).bind f = call o (fun r => (next r).bind f) := rfl

@[simp] theorem done_handle (a : α) (handler : ε → Program Op Res ε α) :
    (done a : Program Op Res ε α).handle handler = done a := rfl

@[simp] theorem raise_handle (e : ε) (handler : ε → Program Op Res ε α) :
    (raise e : Program Op Res ε α).handle handler = handler e := rfl

@[simp] theorem call_handle (o : Op) (next : Res o → Program Op Res ε α)
    (handler : ε → Program Op Res ε α) :
    (call o next).handle handler = call o (fun r => (next r).handle handler) := rfl

/-- Running `f` on the elements of a list, in order. -/
def each (f : α → Program Op Res ε Unit) : List α → Program Op Res ε Unit
  | [] => done ()
  | a :: as => (f a).bind fun _ => each f as

/-- The run of a program that no other task interrupts; `exec` is the effect of
one operation, and the run is `none` when an operation has to wait for ever. -/
def alone {W : Type} (exec : W → (o : Op) → Option (W × Res o)) :
    Program Op Res ε α → W → Option (W × Except ε α)
  | done a, w => some (w, .ok a)
  | raise e, w => some (w, .error e)
  | call o next, w => (exec w o).bind fun (w', r) => (next r).alone exec w'

/-- The run of a program goes on from the effect of its first operation. -/
theorem alone_call {W : Type} {exec : W → (o : Op) → Option (W × Res o)} {o : Op}
    {next : Res o → Program Op Res ε α} {w w' : W} {r : Res o} (h : exec w o = some (w', r)) :
    (call o next).alone exec w = (next r).alone exec w' := by
  simp [alone, h]

section Alone

variable {W : Type} {exec : W → (o : Op) → Option (W × Res o)} {p : Program Op Res ε α}
variable {w w' : W} {a : α} {e : ε}

/-- A run that ends with a value goes on with the rest of the program. -/
theorem alone_bind_ok (f : α → Program Op Res ε β) (h : p.alone exec w = some (w', .ok a)) :
    (p.bind f).alone exec w = (f a).alone exec w' := by
  induction p generalizing w with
  | done b =>
    obtain ⟨rfl, hb⟩ := Prod.mk.inj (Option.some.inj h)
    obtain rfl := Except.ok.inj hb
    rfl
  | raise e => simp [alone] at h
  | call o next ih =>
    obtain ⟨⟨w₁, r⟩, hexec, hrest⟩ := Option.bind_eq_some_iff.mp h
    rw [call_bind, alone_call hexec]
    exact ih r hrest

/-- A run that ends with an exception skips the rest of the program. -/
theorem alone_bind_error (f : α → Program Op Res ε β)
    (h : p.alone exec w = some (w', .error e)) :
    (p.bind f).alone exec w = some (w', .error e) := by
  induction p generalizing w with
  | done b => simp [alone] at h
  | raise e' =>
    obtain ⟨rfl, he⟩ := Prod.mk.inj (Option.some.inj h)
    obtain rfl := Except.error.inj he
    rfl
  | call o next ih =>
    obtain ⟨⟨w₁, r⟩, hexec, hrest⟩ := Option.bind_eq_some_iff.mp h
    rw [call_bind, alone_call hexec]
    exact ih r hrest

/-- Without an exception the handler is not run. -/
theorem alone_handle_ok (handler : ε → Program Op Res ε α)
    (h : p.alone exec w = some (w', .ok a)) :
    (p.handle handler).alone exec w = some (w', .ok a) := by
  induction p generalizing w with
  | done b => exact h
  | raise e => simp [alone] at h
  | call o next ih =>
    obtain ⟨⟨w₁, r⟩, hexec, hrest⟩ := Option.bind_eq_some_iff.mp h
    rw [call_handle, alone_call hexec]
    exact ih r hrest

/-- After an exception the run goes on with the handler. -/
theorem alone_handle_error (handler : ε → Program Op Res ε α)
    (h : p.alone exec w = some (w', .error e)) :
    (p.handle handler).alone exec w = (handler e).alone exec w' := by
  induction p generalizing w with
  | done b => simp [alone] at h
  | raise e' =>
    obtain ⟨rfl, he⟩ := Prod.mk.inj (Option.some.inj h)
    obtain rfl := Except.error.inj he
    rfl
  | call o next ih =>
    obtain ⟨⟨w₁, r⟩, hexec, hrest⟩ := Option.bind_eq_some_iff.mp h
    rw [call_handle, alone_call hexec]
    exact ih r hrest

end Alone

end Program

/-! ## Systems of tasks -/

/-- A system of tasks `T` that run the code of jobs `J` on a world `W`.
`exec` is the effect of one operation, `none` while the operation must wait.
`reset` clears what belongs to a task's process: a task starts with it cleared,
and its end, by return, by exception or by the death of the process, clears it. -/
structure System (T J W Op : Type) (Res : Op → Type) (ε : Type) where
  /-- The code of a job. -/
  code : J → Program Op Res ε Unit
  /-- Whether a job may start in the given world. -/
  admits : W → J → Bool
  /-- The effect and the answer of one operation. -/
  exec : T → W → (o : Op) → Option (W × Res o)
  /-- Discarding a task's process. -/
  reset : T → W → W

/-- The world and, for every busy task, its job and the rest of its program. -/
structure Config (T J W Op : Type) (Res : Op → Type) (ε : Type) where
  world : W
  task : T → Option (J × Program Op Res ε Unit)

/-- What the scheduler may do next. `stop` is allowed at any point, so a
process may die between any two operations. -/
inductive Action (T J : Type) where
  | start (t : T) (j : J)
  | call (t : T)
  | stop (t : T)
  deriving DecidableEq

namespace System

variable {T J W Op : Type} {Res : Op → Type} {ε : Type}

/-- The configuration in which every task is idle. -/
def idle (w : W) : Config T J W Op Res ε := ⟨w, fun _ => none⟩

variable [DecidableEq T] (sys : System T J W Op Res ε)

/-- One scheduler action, `none` when it is not enabled. -/
def step (c : Config T J W Op Res ε) : Action T J → Option (Config T J W Op Res ε)
  | .start t j =>
    match c.task t with
    | some _ => none
    | none =>
      if sys.admits c.world j then
        some ⟨sys.reset t c.world, Function.update c.task t (some (j, sys.code j))⟩
      else none
  | .call t =>
    match c.task t with
    | some (j, .call o next) =>
      (sys.exec t c.world o).map fun (w, r) => ⟨w, Function.update c.task t (some (j, next r))⟩
    | _ => none
  | .stop t =>
    match c.task t with
    | some _ => some ⟨sys.reset t c.world, Function.update c.task t none⟩
    | none => none

/-- A list of scheduler actions, `none` when one of them is not enabled. -/
def schedule (c : Config T J W Op Res ε) : List (Action T J) → Option (Config T J W Op Res ε)
  | [] => some c
  | a :: as => (sys.step c a).bind fun c' => schedule c' as

/-- The condition `cond` on the operations of a run, read off an action: it
holds of the operation that the action performs, if it performs one. -/
def Meets (cond : T → W → Op → Prop) (c : Config T J W Op Res ε) (a : Action T J) : Prop :=
  ∀ t j o next, a = .call t → c.task t = some (j, .call o next) → cond t c.world o

/-- One step of a run whose operations all meet `cond`. -/
def Step (cond : T → W → Op → Prop) (c c' : Config T J W Op Res ε) : Prop :=
  ∃ a, sys.step c a = some c' ∧ Meets cond c a

/-- A finite run whose operations all meet `cond`. -/
def Run (cond : T → W → Op → Prop) : Config T J W Op Res ε → Config T J W Op Res ε → Prop :=
  Relation.ReflTransGen (sys.Step cond)

/-- The system that performs only the operations that pass a check. -/
def guard (check : T → W → Op → Bool) : System T J W Op Res ε :=
  { sys with exec := fun t w o => if check t w o then sys.exec t w o else none }

/-- A guarded step is a step whose operation meets the condition that is checked. -/
theorem step_of_guarded {check : T → W → Op → Bool} {cond : T → W → Op → Prop}
    (hcheck : ∀ t w o, check t w o = true → cond t w o) {c c' : Config T J W Op Res ε}
    {a : Action T J} (h : (sys.guard check).step c a = some c') : sys.Step cond c c' := by
  cases a with
  | start t j => exact ⟨.start t j, h, fun _ _ _ _ ha => by cases ha⟩
  | stop t => exact ⟨.stop t, h, fun _ _ _ _ ha => by cases ha⟩
  | call t =>
    simp only [step, guard] at h
    split at h
    · rename_i j o next htask
      obtain ⟨⟨w, r⟩, hexec, rfl⟩ := Option.map_eq_some_iff.mp h
      obtain ⟨hpass, hexec⟩ := Option.ite_none_right_eq_some.mp hexec
      refine ⟨.call t, by simp [step, htask, hexec], fun t' j' o' next' ha htask' => ?_⟩
      obtain rfl : t = t' := by simpa using ha
      rw [htask] at htask'
      obtain ⟨-, hcall⟩ := Prod.mk.inj (Option.some.inj htask')
      obtain ⟨rfl, -⟩ := Program.call.inj hcall
      exact hcheck t c.world o hpass
    · cases h

/-- A list of actions scheduled on the guarded system is a run. -/
theorem run_of_guarded {check : T → W → Op → Bool} {cond : T → W → Op → Prop}
    (hcheck : ∀ t w o, check t w o = true → cond t w o) {as : List (Action T J)}
    {c c' : Config T J W Op Res ε} (h : (sys.guard check).schedule c as = some c') :
    sys.Run cond c c' := by
  induction as generalizing c with
  | nil =>
    obtain rfl : c = c' := by simpa [schedule] using h
    exact Relation.ReflTransGen.refl
  | cons a as ih =>
    obtain ⟨c₁, hstep, hrest⟩ := Option.bind_eq_some_iff.mp h
    exact Relation.ReflTransGen.head (sys.step_of_guarded hcheck hstep) (ih hrest)

/-- What one step can do: start an admitted job with a fresh process, perform
the next operation of a task, or end a task's process. -/
theorem step_cases {c c' : Config T J W Op Res ε} {a : Action T J}
    (h : sys.step c a = some c') :
    (∃ t j, a = .start t j ∧ c.task t = none ∧ sys.admits c.world j = true ∧
      c' = ⟨sys.reset t c.world, Function.update c.task t (some (j, sys.code j))⟩) ∨
    (∃ t j o next w r, a = .call t ∧ c.task t = some (j, .call o next) ∧
      sys.exec t c.world o = some (w, r) ∧
      c' = ⟨w, Function.update c.task t (some (j, next r))⟩) ∨
    (∃ t, a = .stop t ∧ (c.task t).isSome ∧
      c' = ⟨sys.reset t c.world, Function.update c.task t none⟩) := by
  cases a with
  | start t j =>
    left
    simp only [step] at h
    split at h
    · cases h
    · rename_i hidle
      split at h
      · rename_i hadm
        exact ⟨t, j, rfl, hidle, hadm, (Option.some.inj h).symm⟩
      · cases h
  | call t =>
    right; left
    simp only [step] at h
    split at h
    · rename_i j o next htask
      obtain ⟨⟨w, r⟩, hexec, rfl⟩ := Option.map_eq_some_iff.mp h
      exact ⟨t, j, o, next, w, r, rfl, htask, hexec, rfl⟩
    · cases h
  | stop t =>
    right; right
    simp only [step] at h
    split at h
    · rename_i p htask
      exact ⟨t, rfl, by simp [htask], (Option.some.inj h).symm⟩
    · cases h

/-- A busy task either was busy with the same job before the step, or the step
has just started its job. -/
theorem step_task {c c' : Config T J W Op Res ε} {a : Action T J} {t : T} {j : J}
    {p : Program Op Res ε Unit} (h : sys.step c a = some c') (hp : c'.task t = some (j, p)) :
    (∃ p₀, c.task t = some (j, p₀)) ∨
      (sys.admits c.world j = true ∧ c'.world = sys.reset t c.world) := by
  rcases sys.step_cases h with ⟨t₁, j₁, rfl, hidle, hadm, rfl⟩ |
    ⟨t₁, j₁, o, next, w, r, rfl, htask, hexec, rfl⟩ | ⟨t₁, rfl, hbusy, rfl⟩
  all_goals
    dsimp only at hp ⊢
    by_cases hne : t = t₁
  · subst hne
    obtain ⟨rfl, rfl⟩ : j₁ = j ∧ sys.code j₁ = p := by simpa using hp
    exact Or.inr ⟨hadm, rfl⟩
  · exact Or.inl ⟨p, by rwa [Function.update_of_ne hne] at hp⟩
  · subst hne
    obtain ⟨rfl, rfl⟩ : j₁ = j ∧ next r = p := by simpa using hp
    exact Or.inl ⟨_, htask⟩
  · exact Or.inl ⟨p, by rwa [Function.update_of_ne hne] at hp⟩
  · subst hne
    simp at hp
  · exact Or.inl ⟨p, by rwa [Function.update_of_ne hne] at hp⟩

end System

end RelyLoop.Concurrency
