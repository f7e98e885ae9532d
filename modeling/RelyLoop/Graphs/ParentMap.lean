import Mathlib.Data.Option.Basic
import Mathlib.Data.List.Chain
import Mathlib.Order.Basic

/-!
# Lines through a forest

A forest is given by the parent of each node, and a choice of one child for each node that has
children. One can climb from a node towards its root and descend from there along the chosen
children, each for a bounded number of steps. This file says which nodes the line that one gets
contains, and from which nodes one gets the same line.
-/

namespace RelyLoop.Graphs

variable {α : Type*} {β : Type*}

/-- The ancestor of a node, so many steps up. -/
def ancestor (parent : α → Option α) : ℕ → α → Option α
  | 0, a => some a
  | n + 1, a => (parent a).bind (ancestor parent n)

/-- Climbs until there is no parent, or for the given number of steps. -/
def climb (parent : α → Option α) : ℕ → α → α
  | 0, a => a
  | n + 1, a =>
    match parent a with
    | none => a
    | some p => climb parent n p

/-- The nodes below a node, along the chosen children. -/
def descend (child : α → Option α) : ℕ → α → List α
  | 0, _ => []
  | n + 1, a =>
    match child a with
    | none => []
    | some c => c :: descend child n c

/-- The line through a node: up and from there down again. -/
def line (parent child : α → Option α) (up down : ℕ) (a : α) : List α :=
  climb parent up a :: descend child down (climb parent up a)

/-- A root, or the chosen child of its parent. -/
def Chosen (parent child : α → Option α) (a : α) : Prop :=
  ∀ p, parent a = some p → child p = some a

section

variable {parent child : α → Option α} {rank : α → β} {a b p r x : α} {k m n up down : ℕ}

theorem ancestor_succ (h : parent a = some p) : ancestor parent (n + 1) a = ancestor parent n p := by
  rw [ancestor, h, Option.bind_some]

theorem ancestor_add : ancestor parent (m + n) a =
    (ancestor parent m a).bind (ancestor parent n) := by
  induction m generalizing a with
  | zero => rw [Nat.zero_add, ancestor, Option.bind_some]
  | succ m ih =>
    rw [Nat.add_right_comm, ancestor]
    cases h : parent a with
    | none => simp [ancestor, h]
    | some p => rw [Option.bind_some, ih, ancestor_succ h]

theorem ancestor_one : ancestor parent 1 a = parent a := by
  rw [ancestor]
  cases parent a <;> rfl

/-- Above the root there is nothing. -/
theorem ancestor_eq_none (h : ancestor parent k a = some r) (hr : parent r = none)
    (hn : k < n) : ancestor parent n a = none := by
  obtain ⟨m, rfl⟩ := Nat.exists_eq_add_of_lt hn
  rw [Nat.add_assoc, ancestor_add, h, Option.bind_some, ancestor, hr, Option.bind_none]

/-- A node has one root. -/
theorem root_unique (h : ancestor parent k a = some r) (hr : parent r = none)
    (h' : ancestor parent m a = some x) (hx : parent x = none) : m = k ∧ x = r := by
  rcases lt_trichotomy m k with hlt | rfl | hlt
  · rw [ancestor_eq_none h' hx hlt] at h
    cases h
  · exact ⟨rfl, Option.some.inj (h'.symm.trans h)⟩
  · rw [ancestor_eq_none h hr hlt] at h'
    cases h'

/-- Ancestors rank below. -/
theorem rank_lt_of_ancestor [Preorder β] (hrank : ∀ a p, parent a = some p → rank p < rank a)
    (h : ancestor parent (k + 1) a = some r) : rank r < rank a := by
  induction k generalizing a with
  | zero =>
    rw [ancestor_one] at h
    exact hrank a r h
  | succ k ih =>
    rw [ancestor, Option.bind_eq_some_iff] at h
    obtain ⟨p, hp, h⟩ := h
    exact (ih h).trans (hrank a p hp)

/-- Where the climb ends. -/
theorem exists_climb (parent : α → Option α) (up : ℕ) (a : α) :
    ∃ k ≤ up, ancestor parent k a = some (climb parent up a) ∧
      (parent (climb parent up a) = none ∨ k = up) := by
  induction up generalizing a with
  | zero => exact ⟨0, le_rfl, rfl, .inr rfl⟩
  | succ up ih =>
    rw [climb]
    split
    · rename_i h
      exact ⟨0, Nat.zero_le _, rfl, .inl h⟩
    · rename_i p h
      obtain ⟨k, hk, hancestor, hend⟩ := ih p
      refine ⟨k + 1, Nat.succ_le_succ hk, (ancestor_succ h).trans hancestor, ?_⟩
      exact hend.imp_right (congrArg (· + 1))

/-- A root that is near enough is reached. -/
theorem climb_eq_root (h : ancestor parent k a = some r) (hr : parent r = none) (hk : k ≤ up) :
    climb parent up a = r := by
  obtain ⟨n, hn, hancestor, hend⟩ := exists_climb parent up a
  rcases hend with hroot | rfl
  · exact (root_unique h hr hancestor hroot).2
  · rcases hk.lt_or_eq with hlt | rfl
    · rw [ancestor_eq_none h hr hlt] at hancestor
      cases hancestor
    · exact Option.some.inj (hancestor.symm.trans h)

/-- The climb ends at the root unless the root is too far. -/
theorem parent_climb_eq_none_iff :
    parent (climb parent up a) = none ↔ ancestor parent (up + 1) a = none := by
  obtain ⟨k, hk, hancestor, hend⟩ := exists_climb parent up a
  constructor
  · intro hroot
    exact ancestor_eq_none hancestor hroot (Nat.lt_succ_of_le hk)
  · intro hnone
    rcases hend with hroot | rfl
    · exact hroot
    · rwa [ancestor_add, hancestor, Option.bind_some, ancestor_one] at hnone

theorem isChain_descend (child : α → Option α) (n : ℕ) (a : α) :
    (a :: descend child n a).IsChain fun b c => child b = some c := by
  induction n generalizing a with
  | zero => exact .singleton a
  | succ n ih =>
    rw [descend]
    split
    · exact .singleton a
    · rename_i c h
      exact List.isChain_cons_cons.mpr ⟨h, ih c⟩

theorem length_descend_le (child : α → Option α) (n : ℕ) (a : α) :
    (descend child n a).length ≤ n := by
  induction n generalizing a with
  | zero => exact le_rfl
  | succ n ih =>
    rw [descend]
    split
    · exact Nat.zero_le _
    · exact Nat.succ_le_succ (ih _)

/-- A descent that is shorter than it may be ends at a node without children. -/
theorem child_of_length_descend_lt (h : (descend child n a).length < n)
    (hb : b ∈ (a :: descend child n a).getLast?) : child b = none := by
  induction n generalizing a with
  | zero => exact absurd h (Nat.not_lt_zero _)
  | succ n ih =>
    rw [descend] at h hb
    split at h
    · rename_i hnone
      rw [hnone] at hb
      obtain rfl := Option.mem_some_iff.mp hb
      exact hnone
    · rename_i c hc
      simp only [hc, List.getLast?_cons_cons] at hb
      exact ih (Nat.lt_of_succ_lt_succ h) hb

variable (hchild : ∀ a c, child a = some c → parent c = some a)

include hchild in
/-- The nodes of a descent are those below it whose line up to it is chosen. -/
theorem mem_descend_iff : x ∈ descend child n a ↔
    ∃ k < n, ancestor parent (k + 1) x = some a ∧
      ∀ j ≤ k, ∀ c, ancestor parent j x = some c → Chosen parent child c := by
  constructor
  · intro h
    induction n generalizing a with
    | zero => simp [descend] at h
    | succ n ih =>
      rw [descend] at h
      split at h
      · simp at h
      · rename_i c hc
        have hchosen : Chosen parent child c := by
          intro p hp
          obtain rfl : a = p := Option.some.inj ((hchild a c hc).symm.trans hp)
          exact hc
        rcases List.mem_cons.mp h with rfl | h
        · refine ⟨0, Nat.succ_pos n, by rw [ancestor_one, hchild a x hc], fun j hj c h => ?_⟩
          obtain rfl := Nat.le_zero.mp hj
          obtain rfl := Option.some.inj h
          exact hchosen
        · obtain ⟨k, hk, hancestor, hall⟩ := ih h
          refine ⟨k + 1, Nat.succ_lt_succ hk, ?_, fun j hj d hd => ?_⟩
          · rw [ancestor_add, hancestor, Option.bind_some, ancestor_one, hchild a c hc]
          · rcases hj.lt_or_eq with hlt | rfl
            · exact hall j (Nat.le_of_lt_succ hlt) d hd
            · obtain rfl := Option.some.inj (hancestor.symm.trans hd)
              exact hchosen
  · rintro ⟨k, hk, hancestor, hall⟩
    induction k generalizing n a with
    | zero =>
      obtain ⟨n, rfl⟩ := Nat.exists_eq_succ_of_ne_zero (Nat.ne_of_gt hk)
      rw [ancestor_one] at hancestor
      have hx := hall 0 le_rfl x rfl a hancestor
      simp [descend, hx]
    | succ k ih =>
      obtain ⟨n, rfl⟩ := Nat.exists_eq_succ_of_ne_zero (Nat.ne_of_gt (Nat.zero_lt_of_lt hk))
      rw [ancestor_add, Option.bind_eq_some_iff] at hancestor
      obtain ⟨c, hc, hparent⟩ := hancestor
      rw [ancestor_one] at hparent
      have hca := hall (k + 1) le_rfl c hc a hparent
      have hmem := ih (Nat.lt_of_succ_lt_succ hk) hc fun j hj => hall j (Nat.le_succ_of_le hj)
      simp only [descend, hca]
      exact List.mem_cons_of_mem c hmem

include hchild in
/-- Which nodes are on their own line: those near enough to their root, all of whose line up to
it is chosen. -/
theorem mem_line_iff [Preorder β] (hrank : ∀ a p, parent a = some p → rank p < rank a)
    (hlt : down < up) : a ∈ line parent child up down a ↔
      ancestor parent (down + 1) a = none ∧
        ∀ k c, ancestor parent k a = some c → Chosen parent child c := by
  obtain ⟨n, hn, hclimb, hend⟩ := exists_climb parent up a
  have hroot_of_near : ∀ k ≤ down, ancestor parent k a = some (climb parent up a) →
      parent (climb parent up a) = none := by
    intro k hk hancestor
    rcases hend with hroot | rfl
    · exact hroot
    · obtain ⟨m, rfl⟩ := Nat.exists_eq_add_of_lt (Nat.lt_of_le_of_lt hk hlt)
      rw [Nat.add_assoc, ancestor_add, hancestor, Option.bind_some] at hclimb
      exact absurd (rank_lt_of_ancestor hrank hclimb) (lt_irrefl _)
  constructor
  · intro hmem
    have hwitness : ∃ k ≤ down, ancestor parent k a = some (climb parent up a) ∧
        ∀ j < k, ∀ c, ancestor parent j a = some c → Chosen parent child c := by
      rcases List.mem_cons.mp hmem with heq | hmem
      · exact ⟨0, Nat.zero_le _, congrArg some heq, by simp⟩
      · obtain ⟨k, hk, hancestor, hall⟩ := (mem_descend_iff hchild).mp hmem
        exact ⟨k + 1, hk, hancestor, fun j hj => hall j (Nat.le_of_lt_succ hj)⟩
    obtain ⟨k, hk, hancestor, hall⟩ := hwitness
    have hroot := hroot_of_near k hk hancestor
    refine ⟨ancestor_eq_none hancestor hroot (Nat.lt_succ_of_le hk), fun j c hc => ?_⟩
    rcases lt_trichotomy j k with hj | rfl | hj
    · exact hall j hj c hc
    · obtain rfl := Option.some.inj (hancestor.symm.trans hc)
      intro p hp
      rw [hroot] at hp
      cases hp
    · rw [ancestor_eq_none hancestor hroot hj] at hc
      cases hc
  · rintro ⟨hnone, hall⟩
    have hnear : n ≤ down := by
      by_contra hfar
      obtain ⟨m, hm⟩ := Nat.exists_eq_add_of_le (Nat.lt_of_not_le hfar)
      rw [hm, Nat.succ_eq_add_one, ancestor_add, hnone, Option.bind_none] at hclimb
      cases hclimb
    cases n with
    | zero =>
      obtain heq := Option.some.inj hclimb
      exact List.mem_cons.mpr (.inl heq)
    | succ n =>
      refine List.mem_cons_of_mem _ ((mem_descend_iff hchild).mpr ⟨n, hnear, hclimb, ?_⟩)
      exact fun j _ => hall j

include hchild in
/-- The line is that of all its nodes when it begins at a root. -/
theorem line_eq_of_mem (hle : down ≤ up) (hroot : parent (climb parent up a) = none)
    (hmem : b ∈ line parent child up down a) :
    line parent child up down b = line parent child up down a := by
  have hancestor : ∃ k ≤ down, ancestor parent k b = some (climb parent up a) := by
    rcases List.mem_cons.mp hmem with rfl | hmem
    · exact ⟨0, Nat.zero_le _, rfl⟩
    · obtain ⟨k, hk, hancestor, _⟩ := (mem_descend_iff hchild).mp hmem
      exact ⟨k + 1, hk, hancestor⟩
  obtain ⟨k, hk, hancestor⟩ := hancestor
  rw [line, climb_eq_root hancestor hroot (hk.trans hle), line]

/-- From an anchor that is no root one climbs on. -/
theorem climb_ne_self [Preorder β] (hrank : ∀ a p, parent a = some p → rank p < rank a)
    (hup : 0 < up) (h : parent a ≠ none) : climb parent up a ≠ a := by
  obtain ⟨k, _, hancestor, hend⟩ := exists_climb parent up a
  intro heq
  rw [heq] at hancestor hend
  obtain rfl : k = up := hend.resolve_left h
  obtain ⟨k, rfl⟩ := Nat.exists_eq_succ_of_ne_zero (Nat.ne_of_gt hup)
  exact lt_irrefl _ (rank_lt_of_ancestor hrank hancestor)

end

end RelyLoop.Graphs
