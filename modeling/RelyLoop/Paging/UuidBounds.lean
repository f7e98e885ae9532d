import RelyLoop.Python.DateTime
import RelyLoop.Text.FixedWidth
import Mathlib.Data.String.Basic

/-!
# Lower bounds of UUIDs

A UUID of version 7 begins with the milliseconds of its creation. The queries that were
created since an instant are those whose id is not before a bound, as a text. The
milliseconds of the bound are the lowest 48 bits of a signed number: before 1970 they are
those of an instant in the far future.
-/

namespace RelyLoop.Paging

open Python Text

/-- The fields of a UUID of version 7. -/
structure UuidV7 where
  timestamp : ℕ
  randA : ℕ
  randB : ℕ
  timestamp_lt : timestamp < 2 ^ 48
  randA_lt : randA < 2 ^ 12
  randB_lt : randB < 2 ^ 62
  deriving DecidableEq

/-- The characters of a UUID, of which the version and the variant are part. -/
def uuidText (high mid versionA variantB node : ℕ) : List Char :=
  hexNumeral 8 high ++ '-' :: (hexNumeral 4 mid ++ '-' :: (hexNumeral 4 versionA ++
    '-' :: (hexNumeral 4 variantB ++ '-' :: hexNumeral 12 node)))

/-- The lowercase form of a UUID of version 7. -/
def UuidV7.text (id : UuidV7) : List Char :=
  uuidText (id.timestamp / 2 ^ 16) (id.timestamp % 2 ^ 16) (0x7000 + id.randA)
    (0x8000 + id.randB / 2 ^ 48) (id.randB % 2 ^ 48)

/-- `_uuidv7_lower_bound_from_iso`. The milliseconds are computed exactly, and `int` drops
their fraction. -/
def uuidv7LowerBoundFromIso (since : AnyDateTime) : List Char :=
  let ms := since.microseconds.tdiv 1000
  let tHigh := (Int.shiftRight ms 16 % 2 ^ 32).toNat
  let tMid := (ms % 2 ^ 16).toNat
  formatHex 8 tHigh ++ '-' :: (formatHex 4 tMid ++ "-7000-8000-000000000000".toList)

/-! ## Order -/

section Order

variable {width a b : ℕ} {x y : List Char}

theorem hexNumeral_append_le_iff (ha : a < 16 ^ width) (hb : b < 16 ^ width) :
    hexNumeral width a ++ x ≤ hexNumeral width b ++ y ↔ a < b ∨ a = b ∧ x ≤ y :=
  lastDigits_append_le_iff strictMonoOn_digitChar (by decide) ha hb x y

theorem cons_le_cons_self (c : Char) : c :: x ≤ c :: y ↔ x ≤ y := by
  rw [← not_lt, ← not_lt, List.cons_lt_cons_self]

/-- No later fields of a UUID come before those of the bound. -/
theorem tail_le {versionA variantB node : ℕ} (hversion : 0x7000 ≤ versionA)
    (hversion' : versionA < 16 ^ 4) (hvariant : 0x8000 ≤ variantB) (hvariant' : variantB < 16 ^ 4)
    (hnode : node < 16 ^ 12) :
    hexNumeral 4 0x7000 ++ '-' :: (hexNumeral 4 0x8000 ++ '-' :: hexNumeral 12 0) ≤
      hexNumeral 4 versionA ++ '-' :: (hexNumeral 4 variantB ++ '-' :: hexNumeral 12 node) := by
  have hlast : hexNumeral 12 0 ≤ hexNumeral 12 node := by
    have h := (hexNumeral_append_le_iff (x := []) (y := []) (by decide) hnode).mpr
      ((Nat.eq_zero_or_pos node).symm.imp_right fun h => ⟨h.symm, le_rfl⟩)
    rwa [List.append_nil, List.append_nil] at h
  rw [hexNumeral_append_le_iff (by decide) hversion', cons_le_cons_self,
    hexNumeral_append_le_iff (by decide) hvariant', cons_le_cons_self]
  rcases hversion.lt_or_eq with h | h
  · exact .inl h
  · refine .inr ⟨h, ?_⟩
    rcases hvariant.lt_or_eq with h | h
    · exact .inl h
    · exact .inr ⟨h, hlast⟩

/-- A text with the least later fields is not after a UUID when its milliseconds are not. -/
theorem uuidText_le_iff {ms : ℕ} (hms : ms < 2 ^ 48) (id : UuidV7) :
    uuidText (ms / 2 ^ 16) (ms % 2 ^ 16) 0x7000 0x8000 0 ≤ id.text ↔ ms ≤ id.timestamp := by
  have htimestamp := id.timestamp_lt
  have hrandA := id.randA_lt
  have hrandB := id.randB_lt
  have htail := tail_le (show 0x7000 ≤ 0x7000 + id.randA by omega) (by omega)
    (show 0x8000 ≤ 0x8000 + id.randB / 2 ^ 48 by omega) (by omega)
    (show id.randB % 2 ^ 48 < 16 ^ 12 by omega)
  rw [UuidV7.text, uuidText, uuidText, hexNumeral_append_le_iff (by omega) (by omega),
    cons_le_cons_self, hexNumeral_append_le_iff (by omega) (by omega), cons_le_cons_self]
  simp only [htail, and_true]
  omega

end Order

/-! ## The bound of an instant -/

/-- The milliseconds of the bound. -/
def boundMs (since : AnyDateTime) : ℕ := (since.microseconds.tdiv 1000 % 2 ^ 48).toNat

theorem boundMs_lt (since : AnyDateTime) : boundMs since < 2 ^ 48 := by
  rw [boundMs]
  omega

theorem uuidv7LowerBoundFromIso_eq (since : AnyDateTime) :
    uuidv7LowerBoundFromIso since =
      uuidText (boundMs since / 2 ^ 16) (boundMs since % 2 ^ 16) 0x7000 0x8000 0 := by
  have hshift : Int.shiftRight (since.microseconds.tdiv 1000) 16 =
      since.microseconds.tdiv 1000 / 2 ^ 16 := Int.shiftRight_eq_div_pow _ 16
  have hhigh : (Int.shiftRight (since.microseconds.tdiv 1000) 16 % 2 ^ 32).toNat =
      boundMs since / 2 ^ 16 := by
    rw [boundMs, hshift]
    omega
  have hmid : (since.microseconds.tdiv 1000 % 2 ^ 16).toNat = boundMs since % 2 ^ 16 := by
    rw [boundMs]
    omega
  have hlt := boundMs_lt since
  simp only [uuidv7LowerBoundFromIso, hhigh, hmid]
  rw [formatHex_eq_hexNumeral (by decide) (by omega),
    formatHex_eq_hexNumeral (by decide) (by omega)]
  rfl

/-- The floor of an instant in milliseconds. -/
def floorMs (since : AnyDateTime) : ℤ := since.microseconds / 1000

/-- An id is not before the bound when its timestamp is not before the instant. -/
def BoundExact (since : AnyDateTime) : Prop :=
  ∀ id : UuidV7, uuidv7LowerBoundFromIso since ≤ id.text ↔ floorMs since ≤ id.timestamp

/-- The bound is not after an id when its milliseconds are not. -/
theorem bound_le_iff (since : AnyDateTime) (id : UuidV7) :
    uuidv7LowerBoundFromIso since ≤ id.text ↔ boundMs since ≤ id.timestamp := by
  rw [uuidv7LowerBoundFromIso_eq, uuidText_le_iff (boundMs_lt since)]

/-- The fraction of a millisecond is dropped: before 1970 this is the later millisecond. -/
theorem tdiv_thousand (i : ℤ) :
    0 ≤ i ∧ i.tdiv 1000 = i / 1000 ∨ i < 0 ∧ i.tdiv 1000 = -(-i / 1000) := by
  rcases lt_or_ge i 0 with h | h
  · have hneg : i.tdiv 1000 = -(-i).tdiv 1000 := by rw [Int.neg_tdiv, neg_neg]
    rw [Int.tdiv_eq_ediv_of_nonneg (Int.neg_nonneg_of_nonpos h.le)] at hneg
    exact .inr ⟨h, hneg⟩
  · exact .inl ⟨h, Int.tdiv_eq_ediv_of_nonneg h⟩

/-- The last millisecond before 1970 is cut to 0, and the others before it wrap around. -/
theorem boundExact_iff (since : AnyDateTime) :
    BoundExact since ↔ -1000 < since.microseconds := by
  have hbounds := since.microseconds_bounds
  have hms := tdiv_thousand since.microseconds
  constructor
  · intro h
    by_contra hbefore
    -- the first of all ids was created after the instant, and is before the bound
    have hfirst := h ⟨0, 0, 0, by decide, by decide, by decide⟩
    rw [bound_le_iff, boundMs, floorMs] at hfirst
    dsimp only at hfirst
    omega
  · intro h id
    have htimestamp := id.timestamp_lt
    rw [bound_le_iff, boundMs, floorMs]
    omega

end RelyLoop.Paging
