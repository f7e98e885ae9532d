import Mathlib.Data.List.Sort
import Mathlib.Order.Defs.LinearOrder
import Mathlib.Tactic.Common

/-!
# Ordered queries

Truth values with `NULL`, the orders of a database, and the rows that a query with a
`WHERE`, an `ORDER BY` and a `LIMIT` returns.
-/

namespace RelyLoop.Paging

/-! ## Truth values -/

/-- A truth value of SQL. `none` is `NULL`. -/
abbrev Truth := Option Bool

namespace Truth

/-- `AND`. -/
def and : Truth → Truth → Truth
  | some false, _ => some false
  | _, some false => some false
  | some true, some true => some true
  | _, _ => none

/-- `OR`. -/
def or : Truth → Truth → Truth
  | some true, _ => some true
  | _, some true => some true
  | some false, some false => some false
  | _, _ => none

/-- `WHERE` keeps the rows of which the condition is true. -/
def holds (t : Truth) : Bool := t == some true

@[simp] theorem holds_some (b : Bool) : holds (some b) = b := by cases b <;> rfl

@[simp] theorem holds_none : holds none = false := rfl

@[simp] theorem holds_and (a b : Truth) : (a.and b).holds = (a.holds && b.holds) := by
  rcases a with - | - | - <;> rcases b with - | - | - <;> rfl

@[simp] theorem holds_or (a b : Truth) : (a.or b).holds = (a.holds || b.holds) := by
  rcases a with - | - | - <;> rcases b with - | - | - <;> rfl

end Truth

/-! ## Orders -/

/-- An order of a database. Values of which neither is less than the other are equal to
the database, and are next to each other in a sorted result. -/
structure SqlOrder (V : Type*) where
  lt : V → V → Bool
  asymm : ∀ {a b}, lt a b = true → lt b a = false
  cotrans : ∀ {a b}, lt a b = true → ∀ c, lt a c = true ∨ lt c b = true

namespace SqlOrder

variable {V W : Type*}

/-- `=` of the database. -/
def eq (o : SqlOrder V) (a b : V) : Bool := !o.lt a b && !o.lt b a

@[simp] theorem lt_irrefl (o : SqlOrder V) (a : V) : o.lt a a = false := by
  cases h : o.lt a a with
  | false => rfl
  | true => rw [← h, o.asymm h]

theorem lt_trans (o : SqlOrder V) {a b c : V} (hab : o.lt a b = true) (hbc : o.lt b c = true) :
    o.lt a c = true := by
  rcases o.cotrans hab c with hac | hcb
  · exact hac
  · rw [o.asymm hbc] at hcb
    cases hcb

/-- The order of a linearly ordered type. -/
def ofLinearOrder [LinearOrder V] : SqlOrder V where
  lt a b := decide (a < b)
  asymm := by
    intro a b hab
    simp only [decide_eq_true_eq, decide_eq_false_iff_not] at hab ⊢
    exact hab.asymm
  cotrans := by
    intro a b hab c
    simp only [decide_eq_true_eq] at hab ⊢
    rcases lt_or_ge a c with hac | hca
    · exact .inl hac
    · exact .inr (lt_of_le_of_lt hca hab)

theorem eq_of_ofLinearOrder [LinearOrder V] {a b : V}
    (hab : (ofLinearOrder : SqlOrder V).lt a b = false)
    (hba : (ofLinearOrder : SqlOrder V).lt b a = false) : a = b := by
  simp only [ofLinearOrder, decide_eq_false_iff_not, not_lt] at hab hba
  exact le_antisymm hba hab

/-- The rows in the order of one of their values. -/
def comap (o : SqlOrder W) (f : V → W) : SqlOrder V where
  lt a b := o.lt (f a) (f b)
  asymm := o.asymm
  cotrans h c := o.cotrans h (f c)

/-- `column < value`. -/
def less (o : SqlOrder V) : Option V → Option V → Truth
  | some a, some b => some (o.lt a b)
  | _, _ => none

/-- `column == value` of SQLAlchemy, which is `IS NULL` for `None`. -/
def equals (o : SqlOrder V) : Option V → Option V → Truth
  | a, none => some a.isNone
  | none, some _ => none
  | some a, some b => some (o.eq a b)

/-- The order that `DESC` asks for. -/
def reverse (o : SqlOrder V) : SqlOrder V where
  lt a b := o.lt b a
  asymm := o.asymm
  cotrans h c := (o.cotrans h c).symm

/-- The order of a column, with its null values first or last. -/
def withNulls (o : SqlOrder V) (nullsLast : Bool) : SqlOrder (Option V) where
  lt
    | some a, some b => o.lt a b
    | some _, none => nullsLast
    | none, some _ => !nullsLast
    | none, none => false
  asymm := by
    rintro (- | a) (- | b) h
    · rfl
    · cases nullsLast <;> simp_all
    · cases nullsLast <;> simp_all
    · exact o.asymm h
  cotrans := by
    rintro (- | a) (- | b) h (- | c)
    · cases h
    · cases h
    · exact .inr h
    · exact .inl h
    · exact .inl h
    · exact .inr h
    · cases nullsLast <;> simp
    · exact o.cotrans h c

section Nulls

variable (o : SqlOrder V) (nullsLast : Bool) (a b : V) (c : Option V)

@[simp] theorem less_some : o.less (some a) (some b) = some (o.lt a b) := rfl

@[simp] theorem less_none : o.less c none = none := by cases c <;> rfl

@[simp] theorem none_less : o.less none c = none := rfl

@[simp] theorem equals_some : o.equals (some a) (some b) = some (o.eq a b) := rfl

@[simp] theorem equals_none : o.equals c none = some c.isNone := by cases c <;> rfl

@[simp] theorem none_equals_some : o.equals none (some a) = none := rfl

@[simp] theorem lt_reverse : o.reverse.lt a b = o.lt b a := rfl

@[simp] theorem lt_comap (o : SqlOrder W) (f : V → W) : (o.comap f).lt a b = o.lt (f a) (f b) :=
  rfl

@[simp] theorem lt_withNulls_some :
    (o.withNulls nullsLast).lt (some a) (some b) = o.lt a b := rfl

@[simp] theorem lt_withNulls_some_none :
    (o.withNulls nullsLast).lt (some a) none = nullsLast := rfl

@[simp] theorem lt_withNulls_none_some :
    (o.withNulls nullsLast).lt none (some a) = !nullsLast := rfl

end Nulls

/-- The order of two clauses: the second decides where the first does not. -/
def thenBy (o p : SqlOrder V) : SqlOrder V where
  lt a b := o.lt a b || (!o.lt b a && p.lt a b)
  asymm := by
    intro a b h
    simp only [Bool.or_eq_true, Bool.and_eq_true, Bool.not_eq_true', Bool.or_eq_false_iff,
      Bool.and_eq_false_iff, Bool.not_eq_false'] at h ⊢
    rcases h with h | ⟨h, h'⟩
    · exact ⟨o.asymm h, .inl h⟩
    · exact ⟨h, .inr (p.asymm h')⟩
  cotrans := by
    intro a b h c
    simp only [Bool.or_eq_true, Bool.and_eq_true, Bool.not_eq_true'] at h ⊢
    rcases h with h | ⟨h, h'⟩
    · exact (o.cotrans h c).imp .inl .inl
    · -- a tie of the first clause is broken by the second, unless the third row breaks it
      rcases hca : o.lt c a with - | -
      · rcases hbc : o.lt b c with - | -
        · rcases p.cotrans h' c with hac | hcb
          · exact .inl (.inr ⟨rfl, hac⟩)
          · exact .inr (.inr ⟨rfl, hcb⟩)
        · rcases o.cotrans hbc a with hba | hac
          · rw [h] at hba
            cases hba
          · exact .inl (.inl hac)
      · rcases o.cotrans hca b with hcb | hba
        · exact .inr (.inl hcb)
        · rw [h] at hba
          cases hba

/-- The order of the clauses of an `ORDER BY`. -/
def orderBy : List (SqlOrder V) → SqlOrder V
  | [] => ⟨fun _ _ => false, fun _ => rfl, fun h => by cases h⟩
  | [clause] => clause
  | clause :: clauses => clause.thenBy (orderBy clauses)

/-- The second of two clauses decides where the first does not. -/
@[simp] theorem lt_orderBy_pair (o p : SqlOrder V) (a b : V) :
    (orderBy [o, p]).lt a b = (o.lt a b || (!o.lt b a && p.lt a b)) := rfl

/-- Rows that two clauses do not tell apart are not told apart by the second one. -/
theorem eq_of_orderBy_pair {o p : SqlOrder V} {a b : V} (hab : (orderBy [o, p]).lt a b = false)
    (hba : (orderBy [o, p]).lt b a = false) : p.lt a b = false ∧ p.lt b a = false := by
  simp only [lt_orderBy_pair, Bool.or_eq_false_iff, Bool.and_eq_false_iff,
    Bool.not_eq_false'] at hab hba
  obtain ⟨hab, hsecond⟩ := hab
  obtain ⟨hba, hsecond'⟩ := hba
  rw [hba] at hsecond
  rw [hab] at hsecond'
  exact ⟨hsecond.resolve_left Bool.false_ne_true, hsecond'.resolve_left Bool.false_ne_true⟩

/-! ## Sorted results -/

/-- The rows in the order of the query. -/
def sort (o : SqlOrder V) (rows : List V) : List V :=
  rows.insertionSort fun a b => o.lt b a = false

/-- Different rows are in order. -/
def Separates (o : SqlOrder V) (rows : List V) : Prop :=
  ∀ a ∈ rows, ∀ b ∈ rows, o.lt a b = false → o.lt b a = false → a = b

theorem sort_perm (o : SqlOrder V) (rows : List V) : (o.sort rows).Perm rows :=
  List.perm_insertionSort _ rows

@[simp] theorem mem_sort (o : SqlOrder V) {rows : List V} {row : V} :
    row ∈ o.sort rows ↔ row ∈ rows :=
  (o.sort_perm rows).mem_iff

/-- No row of a sorted result belongs before an earlier one. -/
theorem pairwise_sort (o : SqlOrder V) (rows : List V) :
    (o.sort rows).Pairwise fun a b => o.lt b a = false := by
  have htotal : Std.Total fun a b => o.lt b a = false :=
    ⟨fun a b => by
      rcases hba : o.lt b a with - | -
      · exact .inl rfl
      · exact .inr (o.asymm hba)⟩
  have htrans : IsTrans V fun a b => o.lt b a = false :=
    ⟨fun a b c hba hcb => by
      by_contra hca
      rcases o.cotrans (Bool.eq_true_of_not_eq_false hca) b with h | h
      · rw [hcb] at h
        cases h
      · rw [hba] at h
        cases h⟩
  exact List.pairwise_insertionSort _ rows

/-- Different rows of a sorted result are strictly in order. -/
theorem pairwise_lt_sort (o : SqlOrder V) {rows : List V} (hseparates : o.Separates rows)
    (hnodup : rows.Nodup) : (o.sort rows).Pairwise fun a b => o.lt a b = true := by
  have hnodup' : (o.sort rows).Pairwise (· ≠ ·) := (o.sort_perm rows).nodup_iff.mpr hnodup
  refine List.Pairwise.imp_of_mem ?_ ((o.pairwise_sort rows).and hnodup')
  rintro a b ha hb ⟨hba, hne⟩
  by_contra hab
  exact hne (hseparates a (o.mem_sort.mp ha) b (o.mem_sort.mp hb)
    (Bool.eq_false_of_not_eq_true hab) hba)

/-- The sorted rows that a condition keeps are the kept rows, sorted. -/
theorem sort_filter (o : SqlOrder V) {rows : List V} (hseparates : o.Separates rows)
    (condition : V → Bool) : o.sort (rows.filter condition) = (o.sort rows).filter condition := by
  refine List.Perm.eq_of_pairwise ?_ (o.pairwise_sort _) ((o.pairwise_sort rows).filter condition)
    ((o.sort_perm _).trans ((o.sort_perm rows).symm.filter condition))
  intro a b ha hb hba hab
  have ha' := List.mem_of_mem_filter (o.mem_sort.mp ha)
  have hb' := o.mem_sort.mp (List.mem_of_mem_filter hb)
  exact hseparates a ha' b hb' hab hba

/-- A condition that is added to a query keeps some of its sorted rows. -/
theorem sort_filter_and (o : SqlOrder V) {rows : List V} (hseparates : o.Separates rows)
    (condition added : V → Truth) :
    o.sort (rows.filter fun row => ((condition row).and (added row)).holds) =
      (o.sort (rows.filter fun row => (condition row).holds)).filter
        fun row => (added row).holds := by
  have hfilter : (rows.filter fun row => ((condition row).and (added row)).holds) =
      (rows.filter fun row => (condition row).holds).filter fun row => (added row).holds := by
    rw [List.filter_filter]
    refine List.filter_congr fun row _ => ?_
    rw [Truth.holds_and, Bool.and_comm]
  rw [hfilter, o.sort_filter]
  intro a ha b hb
  exact hseparates a (List.mem_of_mem_filter ha) b (List.mem_of_mem_filter hb)

/-- The rows of a sorted result that come after one of them are those behind it. -/
theorem filter_after (o : SqlOrder V) {rows rest : List V} {row : V}
    (hsorted : (rows ++ row :: rest).Pairwise fun a b => o.lt a b = true) :
    (rows ++ row :: rest).filter (o.lt row) = rest := by
  obtain ⟨-, hrest, hbefore⟩ := List.pairwise_append.mp hsorted
  have hearlier : rows.filter (o.lt row) = [] := by
    refine List.filter_eq_nil_iff.mpr fun a ha => ?_
    rw [o.asymm (hbefore a ha row List.mem_cons_self)]
    exact Bool.false_ne_true
  have hlater : rest.filter (o.lt row) = rest :=
    List.filter_eq_self.mpr (List.pairwise_cons.mp hrest).1
  rw [List.filter_append, hearlier, List.filter_cons, o.lt_irrefl, hlater]
  rfl

end SqlOrder

/-- `SELECT … WHERE … ORDER BY … LIMIT …`. -/
def select {R : Type*} (condition : R → Truth) (order : SqlOrder R) (limit : ℕ) (table : List R) :
    List R :=
  (order.sort (table.filter fun row => (condition row).holds)).take limit

end RelyLoop.Paging
