import Mathlib.Data.List.Nodup
import Mathlib.Data.Set.Basic
import Mathlib.Order.Basic

/-!
# The latest members of a set

What it means that a list shows the latest members of a set, up to a limit, and when the first
members of a longer listing do.
-/

namespace RelyLoop.Ranking

variable {τ β : Type*} [Preorder β] {S : Set τ} {time : τ → β} {limit : ℕ} {listing : List τ}

/-- The members with the latest times, the latest first. Times may be equal; what is left out is
not later than what is shown, and nothing is left out while there is room. -/
structure IsLatest (S : Set τ) (time : τ → β) (limit : ℕ) (shown : List τ) : Prop where
  nodup : shown.Nodup
  member : ∀ t ∈ shown, t ∈ S
  sorted : shown.Pairwise fun t t' => time t' ≤ time t
  atMost : shown.length ≤ limit
  leftOut : ∀ t ∈ S, t ∉ shown → shown.length = limit ∧ ∀ t' ∈ shown, time t ≤ time t'

/-- The listing reaches the limit or shows all members. -/
def Fills (S : Set τ) (limit : ℕ) (listing : List τ) : Prop :=
  limit ≤ listing.length ∨ ∀ t ∈ S, t ∈ listing

/-- What stands before the limit is a member, and no member that does not stand before it is
later. -/
def InOrder (S : Set τ) (time : τ → β) (limit : ℕ) (listing : List τ) : Prop :=
  ∀ before t after, listing = before ++ t :: after → before.length < limit →
    t ∈ S ∧ ∀ t' ∈ S, t' ∉ before → t' ≠ t → time t' ≤ time t

theorem exists_split_of_mem_take {t : τ} (h : t ∈ listing.take limit) :
    ∃ before after, listing = before ++ t :: after ∧ before.length < limit ∧
      before ⊆ listing.take limit := by
  obtain ⟨before, after, hsplit⟩ := List.append_of_mem h
  have hlength := congrArg List.length hsplit
  rw [List.length_take, List.length_append, List.length_cons] at hlength
  refine ⟨before, after ++ listing.drop limit, ?_, by omega, ?_⟩
  · rw [← List.cons_append, ← List.append_assoc, ← hsplit, List.take_append_drop]
  · rw [hsplit]
    exact List.subset_append_left before _

theorem IsLatest.fills (h : IsLatest S time limit (listing.take limit)) :
    Fills S limit listing := by
  by_contra hfill
  obtain ⟨hshort, hleft⟩ := not_or.mp hfill
  refine hleft fun t ht => ?_
  by_contra hout
  have hlimit := (h.leftOut t ht fun hin => hout (List.mem_of_mem_take hin)).1
  rw [List.length_take] at hlimit
  omega

theorem IsLatest.inOrder (h : IsLatest S time limit (listing.take limit)) :
    InOrder S time limit listing := by
  rintro before t after rfl hlt
  have htake : (before ++ t :: after).take limit =
      before ++ t :: after.take (limit - before.length - 1) := by
    rw [List.take_append, List.take_of_length_le hlt.le,
      List.take_cons (by omega : 0 < limit - before.length)]
  rw [htake] at h
  refine ⟨h.member t (by simp), fun t' ht' hbefore hne => ?_⟩
  by_cases hin : t' ∈ after.take (limit - before.length - 1)
  · have htail := (List.pairwise_append.mp h.sorted).2.1
    exact (List.pairwise_cons.mp htail).1 t' hin
  · refine (h.leftOut t' ht' ?_).2 t (by simp)
    simp [hbefore, hne, hin]

/-- Exactly when the first members of a listing are the latest. -/
theorem isLatest_take_iff (hnodup : listing.Nodup) :
    IsLatest S time limit (listing.take limit) ↔
      Fills S limit listing ∧ InOrder S time limit listing := by
  constructor
  · exact fun h => ⟨h.fills, h.inOrder⟩
  · rintro ⟨hfill, horder⟩
    have hmember : ∀ t ∈ listing.take limit, t ∈ S := by
      intro t ht
      obtain ⟨before, after, hsplit, hlt, -⟩ := exists_split_of_mem_take ht
      exact (horder before t after hsplit hlt).1
    refine ⟨hnodup.sublist (List.take_sublist _ _), hmember, ?_, List.length_take_le _ _, ?_⟩
    · rw [List.pairwise_iff_getElem]
      intro i j hi hj hij
      have ht' := hmember _ (List.getElem_mem hj)
      rw [List.length_take] at hi hj
      rw [List.getElem_take, List.getElem_take] at *
      have hsplit : listing = listing.take i ++ listing[i] :: listing.drop (i + 1) := by
        rw [List.getElem_cons_drop, List.take_append_drop]
      refine (horder _ _ _ hsplit (by rw [List.length_take]; omega)).2 _ ht' ?_ ?_
      · intro hin
        obtain ⟨k, hk, hkj⟩ := List.mem_take_iff_getElem.mp hin
        have := (List.Nodup.getElem_inj_iff hnodup).mp hkj
        omega
      · intro heq
        have := (List.Nodup.getElem_inj_iff hnodup).mp heq
        omega
    · intro t ht hout
      have hlimit : limit ≤ listing.length := by
        rcases hfill with hlimit | hall
        · exact hlimit
        · by_contra hlt
          rw [List.take_of_length_le (by omega)] at hout
          exact hout (hall t ht)
      refine ⟨by rw [List.length_take]; omega, fun t' ht' => ?_⟩
      obtain ⟨before, after, hsplit, hlt, hbefore⟩ := exists_split_of_mem_take ht'
      refine (horder before t' after hsplit hlt).2 t ht (fun hin => hout (hbefore hin)) ?_
      rintro rfl
      exact hout ht'

end RelyLoop.Ranking
