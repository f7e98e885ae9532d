import RelyLoop.Concurrency.Program

/-!
# Rely and guarantee

A task's code is verified alone, against what the other tasks may do between
two of its operations. A contract collects the invariant of the world, what one
step may change, and what each task relies on; `Safe` is the weakest
precondition of a program under a contract. When the code of every job is
safe, every run keeps the invariant, and every step of it is an allowed change.
-/

namespace RelyLoop.Concurrency

/-- The agreement between the tasks of a system. -/
structure Contract (T J W Op : Type) where
  /-- What holds of the world between any two operations. -/
  inv : W → Prop
  /-- What a step of a task with the given job may change. -/
  change : J → W → W → Prop
  /-- What a task relies on the other tasks to leave alone. -/
  rely : T → W → W → Prop
  /-- The condition on the operations of the runs considered. -/
  cond : T → W → Op → Prop
  rely_refl : ∀ t w, rely t w w
  rely_trans : ∀ t w₁ w₂ w₃, rely t w₁ w₂ → rely t w₂ w₃ → rely t w₁ w₃

/-- The promise of task `t`, running job `j`, about one of its steps. -/
structure Contract.Guarantees {T J W Op : Type} (C : Contract T J W Op) (t : T) (j : J)
    (w w' : W) : Prop where
  inv : C.inv w'
  change : C.change j w w'
  rely : ∀ t', t' ≠ t → C.rely t' w w'

variable {T J W Op : Type} {Res : Op → Type} {ε α β : Type}
variable (sys : System T J W Op Res ε) (C : Contract T J W Op) (t : T) (j : J)

/-- The program keeps the contract from the world `w` on, and ends in `Q` when
it returns and in `E` when it raises, whatever the other tasks do meanwhile. -/
def Safe (Q : α → W → Prop) (E : ε → W → Prop) : Program Op Res ε α → W → Prop
  | .done a, w => Q a w
  | .raise e, w => E e w
  | .call o next, w => ∀ w₁, C.rely t w w₁ → C.inv w₁ → C.cond t w₁ o →
      ∀ w₂ r, sys.exec t w₁ o = some (w₂, r) →
        C.Guarantees t j w₁ w₂ ∧ Safe Q E (next r) w₂

namespace Safe

variable {sys C t j} {Q : α → W → Prop} {E : ε → W → Prop} {p : Program Op Res ε α} {w : W}

@[simp] theorem done_iff {a : α} :
    Safe sys C t j Q E (.done a : Program Op Res ε α) w ↔ Q a w := Iff.rfl

@[simp] theorem raise_iff {e : ε} :
    Safe sys C t j Q E (.raise e : Program Op Res ε α) w ↔ E e w := Iff.rfl

/-- Consequence: the postconditions may be weakened. -/
theorem mono {Q' : α → W → Prop} {E' : ε → W → Prop} (hQ : ∀ a w, Q a w → Q' a w)
    (hE : ∀ e w, E e w → E' e w) (h : Safe sys C t j Q E p w) : Safe sys C t j Q' E' p w := by
  induction p generalizing w with
  | done a => exact hQ a w h
  | raise e => exact hE e w h
  | call o next ih =>
    intro w₁ hrely hinv hcond w₂ r hexec
    obtain ⟨hguar, hnext⟩ := h w₁ hrely hinv hcond w₂ r hexec
    exact ⟨hguar, ih r hnext⟩

/-- Consequence for programs that return. -/
theorem post {Q' : α → W → Prop} (h : Safe sys C t j Q E p w) (hQ : ∀ a w, Q a w → Q' a w) :
    Safe sys C t j Q' E p w := h.mono hQ fun _ _ hE => hE

/-- Other tasks do not invalidate a safe program, when its postconditions
depend only on what it may rely on. -/
theorem stable {w' : W} (hQ : ∀ a w w', C.rely t w w' → Q a w → Q a w')
    (hE : ∀ e w w', C.rely t w w' → E e w → E e w') (hrely : C.rely t w w')
    (h : Safe sys C t j Q E p w) : Safe sys C t j Q E p w' := by
  cases p with
  | done a => exact hQ a w w' hrely h
  | raise e => exact hE e w w' hrely h
  | call o next => exact fun w₁ hrely₁ => h w₁ (C.rely_trans t w w' w₁ hrely hrely₁)

/-- Sequencing: the second program runs from where the first one returned. -/
theorem bind {R : β → W → Prop} {f : α → Program Op Res ε β}
    (h : Safe sys C t j (fun a => Safe sys C t j R E (f a)) E p w) :
    Safe sys C t j R E (p.bind f) w := by
  induction p generalizing w with
  | done a => exact h
  | raise e => exact h
  | call o next ih =>
    intro w₁ hrely hinv hcond w₂ r hexec
    obtain ⟨hguar, hnext⟩ := h w₁ hrely hinv hcond w₂ r hexec
    exact ⟨hguar, ih r hnext⟩

/-- Sequencing: the second program is safe wherever the first one may return. -/
theorem seq {R : β → W → Prop} {f : α → Program Op Res ε β} (h : Safe sys C t j Q E p w)
    (hf : ∀ a w, Q a w → Safe sys C t j R E (f a) w) : Safe sys C t j R E (p.bind f) w :=
  bind (h.post hf)

/-- Handling: the handler runs from where the program raised. -/
theorem handle {handler : ε → Program Op Res ε α}
    (h : Safe sys C t j Q (fun e => Safe sys C t j Q E (handler e)) p w) :
    Safe sys C t j Q E (p.handle handler) w := by
  induction p generalizing w with
  | done a => exact h
  | raise e => exact h
  | call o next ih =>
    intro w₁ hrely hinv hcond w₂ r hexec
    obtain ⟨hguar, hnext⟩ := h w₁ hrely hinv hcond w₂ r hexec
    exact ⟨hguar, ih r hnext⟩

/-- A loop over a list keeps a loop invariant that each round keeps. -/
theorem each {I : W → Prop} {f : α → Program Op Res ε Unit} {as : List α}
    (hf : ∀ a ∈ as, ∀ w, I w → Safe sys C t j (fun _ => I) E (f a) w) (hw : I w) :
    Safe sys C t j (fun _ => I) E (Program.each f as) w := by
  induction as generalizing w with
  | nil => exact hw
  | cons a as ih =>
    apply Safe.bind
    refine mono (fun _ w' hI => ?_) (fun _ _ h => h) (hf a List.mem_cons_self w hw)
    exact ih (fun b hb => hf b (List.mem_cons_of_mem a hb)) hI

/-- A loop over a list that keeps `I` and achieves `P` for each element, where no
round undoes what was achieved. -/
theorem each_all {I : W → Prop} {P : α → W → Prop} {f : α → Program Op Res ε Unit} {as : List α}
    (hf : ∀ a ∈ as, ∀ w, I w →
      Safe sys C t j (fun _ w' => I w' ∧ P a w' ∧ ∀ b, P b w → P b w') E (f a) w) (hw : I w) :
    Safe sys C t j (fun _ w' => (I w' ∧ ∀ b, P b w → P b w') ∧ ∀ a ∈ as, P a w') E
      (Program.each f as) w := by
  induction as generalizing w with
  | nil => exact ⟨⟨hw, fun _ h => h⟩, by simp⟩
  | cons a as ih =>
    refine Safe.seq (hf a List.mem_cons_self w hw) fun _ w₁ h₁ => ?_
    refine (ih (fun b hb => hf b (List.mem_cons_of_mem a hb)) h₁.1).post ?_
    rintro - w₂ ⟨⟨hI₂, hkeep⟩, hall⟩
    refine ⟨⟨hI₂, fun b hb => hkeep b (h₁.2.2 b hb)⟩, fun b hb => ?_⟩
    rcases List.mem_cons.mp hb with rfl | hrest
    · exact hkeep b h₁.2.1
    · exact hall b hrest

end Safe

/-! ## Runs of safe code -/

/-- The contract is met by a system: the code of every job is safe from a fresh
process on, and discarding a process is an allowed step. -/
structure Contract.Met (sys : System T J W Op Res ε) (C : Contract T J W Op) : Prop where
  code : ∀ t j w, C.inv w → sys.admits w j = true →
    Safe sys C t j (fun _ _ => True) (fun _ _ => True) (sys.code j) (sys.reset t w)
  reset : ∀ t j w, C.inv w → C.Guarantees t j w (sys.reset t w)

/-- The contract is met, and a job that returns has achieved `Post`, which the
other tasks do not undo. -/
structure Contract.Achieves (sys : System T J W Op Res ε) (C : Contract T J W Op)
    (Post : T → J → W → Prop) : Prop where
  code : ∀ t j w, C.inv w → sys.admits w j = true →
    Safe sys C t j (fun _ => Post t j) (fun _ _ => True) (sys.code j) (sys.reset t w)
  reset : ∀ t j w, C.inv w → C.Guarantees t j w (sys.reset t w)
  stable : ∀ t j w w', C.rely t w w' → Post t j w → Post t j w'

/-- The invariant of a run: the world keeps `inv` and what is left of every
task's program is safe. -/
def Contract.Sound (sys : System T J W Op Res ε) (C : Contract T J W Op)
    (c : Config T J W Op Res ε) : Prop :=
  C.inv c.world ∧ ∀ t j p, c.task t = some (j, p) →
    Safe sys C t j (fun _ _ => True) (fun _ _ => True) p c.world

/-- The invariant of a run of jobs that achieve `Post`. -/
def Contract.OnCourse (sys : System T J W Op Res ε) (C : Contract T J W Op)
    (Post : T → J → W → Prop) (c : Config T J W Op Res ε) : Prop :=
  C.inv c.world ∧ ∀ t j p, c.task t = some (j, p) →
    Safe sys C t j (fun _ => Post t j) (fun _ _ => True) p c.world

section Runs

variable {sys} {C} {c c' : Config T J W Op Res ε} {Post : T → J → W → Prop}

/-- Idle tasks have no program to be unsafe. -/
theorem Contract.sound_idle {w : W} (hinv : C.inv w) : C.Sound sys (System.idle w) :=
  ⟨hinv, fun _ _ _ h => by cases h⟩

theorem Contract.onCourse_idle {w : W} (hinv : C.inv w) : C.OnCourse sys Post (System.idle w) :=
  ⟨hinv, fun _ _ _ h => by cases h⟩

/-- A safe program stays safe while another task steps. -/
private theorem safe_of_guarantees {t' : T} {j' : J} {p : Program Op Res ε Unit} {w w' : W}
    (hstable : ∀ w w', C.rely t' w w' → Post t' j' w → Post t' j' w')
    (hguar : C.Guarantees t j w w') (hne : t' ≠ t)
    (h : Safe sys C t' j' (fun _ => Post t' j') (fun _ _ => True) p w) :
    Safe sys C t' j' (fun _ => Post t' j') (fun _ _ => True) p w' :=
  h.stable (fun _ => hstable) (fun _ _ _ _ _ => trivial) (hguar.rely t' hne)

/-- A contract that is met achieves at least nothing. -/
theorem Contract.Met.achieves (hmet : C.Met sys) : C.Achieves sys fun _ _ _ => True :=
  ⟨hmet.code, hmet.reset, fun _ _ _ _ _ _ => trivial⟩

/-- Jobs that achieve `Post` meet the contract. -/
theorem Contract.Achieves.met (hmet : C.Achieves sys Post) : C.Met sys where
  code t j w hinv hadm := (hmet.code t j w hinv hadm).post fun _ _ _ => trivial
  reset := hmet.reset

/-- A job that has returned has achieved its postcondition. -/
theorem Contract.OnCourse.done {t : T} {j : J} (hc : C.OnCourse sys Post c)
    (htask : c.task t = some (j, .done ())) : Post t j c.world := hc.2 t j _ htask

variable [DecidableEq T]

/-- One step keeps the run invariant and is an allowed change of the job of the
task that steps; a task that starts has only its process reset. -/
theorem Contract.Achieves.step (hmet : C.Achieves sys Post) (hc : C.OnCourse sys Post c)
    (hstep : sys.Step C.cond c c') :
    C.OnCourse sys Post c' ∧ ∃ t j, C.change j c.world c'.world ∧
      ((∃ p, c.task t = some (j, p)) ∨ c'.world = sys.reset t c.world) := by
  obtain ⟨a, hstep, hmeets⟩ := hstep
  obtain ⟨hinv, hsafe⟩ := hc
  rcases sys.step_cases hstep with ⟨t, j, rfl, hidle, hadm, rfl⟩ |
    ⟨t, j, o, next, w, r, rfl, htask, hexec, rfl⟩ | ⟨t, rfl, hbusy, rfl⟩
  · have hguar := hmet.reset t j c.world hinv
    refine ⟨⟨hguar.inv, fun t' j' p hp => ?_⟩, t, j, hguar.change, Or.inr rfl⟩
    by_cases hne : t' = t
    · subst hne
      obtain ⟨rfl, rfl⟩ : j = j' ∧ sys.code j = p := by simpa using hp
      exact hmet.code t' j c.world hinv hadm
    · dsimp only at hp
      rw [Function.update_of_ne hne] at hp
      exact safe_of_guarantees t j (hmet.stable t' j') hguar hne (hsafe t' j' p hp)
  · obtain ⟨hguar, hnext⟩ := hsafe t j _ htask c.world (C.rely_refl t c.world) hinv
      (hmeets t j o next rfl htask) w r hexec
    refine ⟨⟨hguar.inv, fun t' j' p hp => ?_⟩, t, j, hguar.change, Or.inl ⟨_, htask⟩⟩
    by_cases hne : t' = t
    · subst hne
      obtain ⟨rfl, rfl⟩ : j = j' ∧ next r = p := by simpa using hp
      exact hnext
    · dsimp only at hp
      rw [Function.update_of_ne hne] at hp
      exact safe_of_guarantees t j (hmet.stable t' j') hguar hne (hsafe t' j' p hp)
  · obtain ⟨⟨j, p₀⟩, hp₀⟩ := Option.isSome_iff_exists.mp hbusy
    have hguar := hmet.reset t j c.world hinv
    refine ⟨⟨hguar.inv, fun t' j' p hp => ?_⟩, t, j, hguar.change, Or.inr rfl⟩
    by_cases hne : t' = t
    · subst hne
      simp at hp
    · dsimp only at hp
      rw [Function.update_of_ne hne] at hp
      exact safe_of_guarantees t j (hmet.stable t' j') hguar hne (hsafe t' j' p hp)

/-- Every run of jobs that achieve `Post` keeps the run invariant. -/
theorem Contract.Achieves.run (hmet : C.Achieves sys Post) (hc : C.OnCourse sys Post c)
    (hrun : sys.Run C.cond c c') : C.OnCourse sys Post c' := by
  induction hrun with
  | refl => exact hc
  | tail _ hstep ih => exact (hmet.step ih hstep).1

/-- One step keeps the run invariant and is an allowed change of the job of the
task that steps. -/
theorem Contract.Met.step (hmet : C.Met sys) (hc : C.Sound sys c) (hstep : sys.Step C.cond c c') :
    C.Sound sys c' ∧ ∃ t j, C.change j c.world c'.world ∧
      ((∃ p, c.task t = some (j, p)) ∨ c'.world = sys.reset t c.world) :=
  hmet.achieves.step hc hstep

/-- Every run keeps the run invariant. -/
theorem Contract.Met.run (hmet : C.Met sys) (hc : C.Sound sys c) (hrun : sys.Run C.cond c c') :
    C.Sound sys c' := by
  induction hrun with
  | refl => exact hc
  | tail _ hstep ih => exact (hmet.step ih hstep).1

/-- A property of the world that no allowed change destroys is kept by every run. -/
theorem Contract.Met.run_keeps (hmet : C.Met sys) {P : W → Prop}
    (hkeep : ∀ j w w', C.change j w w' → P w → P w') (hc : C.Sound sys c) (hP : P c.world)
    (hrun : sys.Run C.cond c c') : P c'.world := by
  induction hrun with
  | refl => exact hP
  | tail hrun hstep ih =>
    obtain ⟨_, j, hchange, _⟩ := (hmet.step (hmet.run hc hrun) hstep).2
    exact hkeep j _ _ hchange ih

/-- A property of jobs that holds when a job starts, and that no allowed
change destroys, holds of every busy task in every state of a run. -/
theorem Contract.Met.run_jobs (hmet : C.Met sys) {fits : J → W → Prop}
    (hadm : ∀ t j w, C.inv w → sys.admits w j = true → fits j (sys.reset t w))
    (hkeep : ∀ j j' w w', C.change j w w' → fits j' w → fits j' w')
    (hc : C.Sound sys c) (hfits : ∀ t j p, c.task t = some (j, p) → fits j c.world)
    (hrun : sys.Run C.cond c c') : ∀ t j p, c'.task t = some (j, p) → fits j c'.world := by
  induction hrun with
  | refl => exact hfits
  | @tail c₁ c₂ hrun hstep ih =>
    have hc₁ := hmet.run hc hrun
    obtain ⟨_, j₀, hchange, _⟩ := (hmet.step hc₁ hstep).2
    obtain ⟨a, hstep, _⟩ := hstep
    intro t j p hp
    rcases sys.step_task hstep hp with ⟨p₀, hp₀⟩ | ⟨hstart, hworld⟩
    · exact hkeep j₀ j _ _ hchange (ih t j p₀ hp₀)
    · rw [hworld]
      exact hadm t j c₁.world hc₁.1 hstart

end Runs

end RelyLoop.Concurrency

/-!
## The operations of a program

A program all of whose operations keep a contract in every world is safe, whatever
it branches on.
-/

namespace RelyLoop.Concurrency

namespace Program

variable {Op : Type} {Res : Op → Type} {ε α β : Type} {P P' : Op → Prop}

/-- Every operation that the program may perform satisfies `P`. -/
def Every (P : Op → Prop) : Program Op Res ε α → Prop
  | .done _ => True
  | .raise _ => True
  | .call o next => P o ∧ ∀ r, (next r).Every P

@[simp] theorem every_done (a : α) : (done a : Program Op Res ε α).Every P := trivial

@[simp] theorem every_raise (e : ε) : (raise e : Program Op Res ε α).Every P := trivial

theorem every_perform {o : Op} (h : P o) : (perform o : Program Op Res ε (Res o)).Every P :=
  ⟨h, fun _ => trivial⟩

theorem Every.bind {p : Program Op Res ε α} {f : α → Program Op Res ε β} (h : p.Every P)
    (hf : ∀ a, (f a).Every P) : (p.bind f).Every P := by
  induction p with
  | done a => exact hf a
  | raise e => trivial
  | call o next ih => exact ⟨h.1, fun r => ih r (h.2 r)⟩

theorem Every.handle {p : Program Op Res ε α} {handler : ε → Program Op Res ε α} (h : p.Every P)
    (hhandler : ∀ e, (handler e).Every P) : (p.handle handler).Every P := by
  induction p with
  | done a => trivial
  | raise e => exact hhandler e
  | call o next ih => exact ⟨h.1, fun r => ih r (h.2 r)⟩

theorem every_each {f : α → Program Op Res ε Unit} {as : List α}
    (hf : ∀ a ∈ as, (f a).Every P) : (each f as).Every P := by
  induction as with
  | nil => trivial
  | cons a as ih =>
    exact (hf a List.mem_cons_self).bind fun _ => ih fun b hb => hf b (List.mem_cons_of_mem a hb)

end Program

variable {T J W Op : Type} {Res : Op → Type} {ε α : Type}
variable {sys : System T J W Op Res ε} {C : Contract T J W Op} {t : T} {j : J}

/-- A program whose operations all keep the contract is safe. -/
theorem Safe.of_every {P : Op → Prop} {p : Program Op Res ε α} {w : W}
    (hkeep : ∀ o, P o → ∀ w₁ w₂ r, C.inv w₁ → sys.exec t w₁ o = some (w₂, r) →
      C.Guarantees t j w₁ w₂) (h : p.Every P) :
    Safe sys C t j (fun _ _ => True) (fun _ _ => True) p w := by
  induction p generalizing w with
  | done a => trivial
  | raise e => trivial
  | call o next ih =>
    intro w₁ _ hinv _ w₂ r hexec
    exact ⟨hkeep o h.1 w₁ w₂ r hinv hexec, ih r (h.2 r)⟩

end RelyLoop.Concurrency
