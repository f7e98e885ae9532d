import RelyLoop.Python.Dict
import RelyLoop.Text.Utf16
import Mathlib.Algebra.BigOperators.Group.List.Basic
import Mathlib.Algebra.Order.Group.Nat
import Mathlib.Data.List.Lex
import Mathlib.Data.List.Sort
import Mathlib.Data.Nat.Log
import Mathlib.Tactic.Ring

/-!
# Objects, sorting and numbers

A plain object is the dictionary of its own properties, in the order in which they were created.
Its keys are listed with the array indices first, and an assignment to `__proto__` creates no
property. Texts are sorted by their code units, and products are rounded.
-/

namespace RelyLoop.EcmaScript

open Python Text

/-! ## Plain objects -/

variable {ν : Type}

/-- The array index that a key spells. -/
def arrayIndex? (key : String) : Option ℕ :=
  let digits := key.toList
  let index := digits.foldl (fun n c => n * 10 + (c.toNat - 48)) 0
  if digits ≠ [] ∧ digits.all Char.isDigit = true ∧ (digits.head? ≠ some '0' ∨ digits = ['0']) ∧
      index < 2 ^ 32 - 1 then some index
  else none

/-- `Object.entries`. -/
def objectEntries (o : Dict String ν) : List (String × ν) :=
  ((o.entries.filter fun e => (arrayIndex? e.1).isSome).insertionSort fun e e' =>
      (arrayIndex? e.1).getD 0 ≤ (arrayIndex? e'.1).getD 0) ++
    o.entries.filter fun e => (arrayIndex? e.1).isNone

/-- `Object.keys`. -/
def objectKeys (o : Dict String ν) : List String := (objectEntries o).map Prod.fst

/-- `o[key] = value`, for a value that is an object. -/
def assign (o : Dict String ν) (key : String) (value : ν) : Dict String ν :=
  if key = "__proto__" then o else o.set key value

theorem arrayIndex?_eq_none {key : String} {c : Char} {cs : List Char} (h : key.toList = c :: cs)
    (hc : c.isDigit = false) : arrayIndex? key = none := by
  rw [arrayIndex?, if_neg]
  rintro ⟨-, hdigits, -⟩
  rw [h, List.all_cons, hc] at hdigits
  cases hdigits

/-- Without array indices, the entries stand in the order of their creation. -/
theorem objectEntries_of_forall {o : Dict String ν} (h : ∀ key ∈ o.keys, arrayIndex? key = none) :
    objectEntries o = o.entries := by
  have hkey (e : String × ν) (he : e ∈ o.entries) : arrayIndex? e.1 = none :=
    h e.1 (List.mem_map_of_mem he)
  have hindices : (o.entries.filter fun e => (arrayIndex? e.1).isSome) = [] := by
    rw [List.filter_eq_nil_iff]
    intro e he
    rw [hkey e he]
    exact Bool.false_ne_true
  have hothers : (o.entries.filter fun e => (arrayIndex? e.1).isNone) = o.entries := by
    rw [List.filter_eq_self]
    intro e he
    rw [hkey e he]
    rfl
  rw [objectEntries, hindices, hothers]
  rfl

theorem objectKeys_of_forall {o : Dict String ν} (h : ∀ key ∈ o.keys, arrayIndex? key = none) :
    objectKeys o = o.keys := by
  rw [objectKeys, objectEntries_of_forall h]
  rfl

/-- Assigning distinct keys one after another creates their properties, but for `__proto__`. -/
theorem foldl_assign {ν' : Type} (o : Dict String ν) (f : String → ν → ν') :
    o.entries.foldl (fun made e => assign made e.1 (f e.1 e.2)) Dict.empty =
      (o.erase "__proto__").mapItems f := by
  have hfold (entries : List (String × ν)) (made : Dict String ν') :
      entries.foldl (fun made e => assign made e.1 (f e.1 e.2)) made =
        ((entries.filter fun e => e.1 ≠ "__proto__").map fun e => (e.1, f e.1 e.2)).foldl
          (fun made e => made.set e.1 e.2) made := by
    induction entries generalizing made with
    | nil => rfl
    | cons e entries ih =>
      rw [List.foldl_cons, ih, assign]
      by_cases hproto : e.1 = "__proto__"
      · rw [if_pos hproto, List.filter_cons_of_neg (by simpa using hproto)]
      · rw [if_neg hproto, List.filter_cons_of_pos (by simpa using hproto)]
        rfl
  apply Dict.ext
  rw [hfold]
  exact Dict.entries_ofList ((o.erase "__proto__").mapItems f).nodup

/-! ## Sorting -/

/-- `sort()` on texts. -/
def sortByCodeUnits (names : List String) : List String :=
  names.insertionSort fun name name' => utf16 name.toList ≤ utf16 name'.toList

theorem perm_sortByCodeUnits (names : List String) : (sortByCodeUnits names).Perm names :=
  List.perm_insertionSort _ names

/-! ## Products of numbers -/

/-- The number nearest to an integer, the even one of two. Numbers that are too large stay large. -/
def roundNumber (n : ℕ) : ℕ :=
  let unit := 2 ^ (n.log2 - 52)
  let quotient := n / unit
  let rest := n % unit
  if unit < 2 * rest ∨ (2 * rest = unit ∧ quotient % 2 = 1) then (quotient + 1) * unit
  else quotient * unit

/-- A product, one factor after the other. -/
def product (factors : List ℕ) : ℕ :=
  factors.foldl (fun total factor => roundNumber (total * factor)) 1

theorem roundNumber_of_lt {n : ℕ} (h : n < 2 ^ 53) : roundNumber n = n := by
  have hlog : n.log2 - 52 = 0 := by
    by_cases hzero : n = 0
    · rw [hzero]
      rfl
    · have hlt := (Nat.log2_lt hzero).mpr h
      omega
  rw [roundNumber, hlog]
  simp [Nat.mod_one]

theorem le_roundNumber {n : ℕ} (h : 2 ^ 53 ≤ n) : 2 ^ 53 ≤ roundNumber n := by
  have hzero : n ≠ 0 := by
    have := Nat.two_pow_pos 53
    omega
  have hlog : 53 ≤ n.log2 := (Nat.le_log2 hzero).mpr h
  have hquotient : 2 ^ 53 ≤ n / 2 ^ (n.log2 - 52) * 2 ^ (n.log2 - 52) := by
    have hle : 2 ^ 52 ≤ n / 2 ^ (n.log2 - 52) := by
      rw [Nat.le_div_iff_mul_le (Nat.two_pow_pos _), ← pow_add]
      have hsum : 52 + (n.log2 - 52) = n.log2 := by omega
      rw [hsum]
      exact Nat.log2_self_le hzero
    calc 2 ^ 53 = 2 ^ 52 * 2 ^ 1 := (pow_succ 2 52)
      _ ≤ n / 2 ^ (n.log2 - 52) * 2 ^ (n.log2 - 52) :=
        Nat.mul_le_mul hle (Nat.pow_le_pow_right (by decide) (by omega))
  rw [roundNumber]
  split_ifs with hup
  · exact hquotient.trans (Nat.mul_le_mul_right _ (Nat.le_succ _))
  · exact hquotient

/-- A rounded product is exact while it is small, and stays large from then on. -/
theorem product_le_iff {factors : List ℕ} {cap : ℕ} (hpos : ∀ factor ∈ factors, 1 ≤ factor)
    (hcap : cap < 2 ^ 53) : product factors ≤ cap ↔ factors.prod ≤ cap := by
  have hfold (total exact : ℕ) (hfactors : ∀ factor ∈ factors, 1 ≤ factor)
      (h : total = exact ∧ exact < 2 ^ 53 ∨ 2 ^ 53 ≤ total ∧ 2 ^ 53 ≤ exact) :
      factors.foldl (fun total factor => roundNumber (total * factor)) total ≤ cap ↔
        exact * factors.prod ≤ cap := by
    clear hpos
    induction factors generalizing total exact with
    | nil =>
      rw [List.foldl_nil, List.prod_nil, mul_one]
      omega
    | cons factor factors ih =>
      obtain ⟨hfactor, hrest⟩ := List.forall_mem_cons.mp hfactors
      rw [List.foldl_cons, List.prod_cons, ← mul_assoc]
      apply ih _ _ hrest
      rcases h with ⟨rfl, -⟩ | ⟨htotal, hexact⟩
      · by_cases hsmall : total * factor < 2 ^ 53
        · exact Or.inl ⟨roundNumber_of_lt hsmall, hsmall⟩
        · exact Or.inr ⟨le_roundNumber (not_lt.mp hsmall), not_lt.mp hsmall⟩
      · exact Or.inr ⟨le_roundNumber (htotal.trans (Nat.le_mul_of_pos_right _ hfactor)),
          hexact.trans (Nat.le_mul_of_pos_right _ hfactor)⟩
  have hone := hfold 1 1 hpos (Or.inl ⟨rfl, by decide⟩)
  rwa [one_mul] at hone

end RelyLoop.EcmaScript
