import FindQuery.StableSort
import Mathlib.Data.List.Sort

/-! The stable sort is the insertion sort of the library. -/

namespace FindQuery

variable {α : Type} {le : α → α → Bool} {l : List α}

theorem insertSorted_eq_orderedInsert (le : α → α → Bool) (a : α) (l : List α) :
    insertSorted le a l = l.orderedInsert (le · · = true) a := by
  induction l with
  | nil => rfl
  | cons b rest ih => rw [insertSorted, List.orderedInsert, ih]

theorem stableSort_eq_insertionSort (le : α → α → Bool) (l : List α) :
    stableSort le l = l.insertionSort (le · · = true) := by
  induction l with
  | nil => rfl
  | cons a rest ih => rw [stableSort, List.insertionSort_cons, ih, insertSorted_eq_orderedInsert]

theorem perm_stableSort (le : α → α → Bool) (l : List α) : (stableSort le l).Perm l := by
  rw [stableSort_eq_insertionSort]
  exact List.perm_insertionSort _ l

theorem mem_stableSort {a : α} : a ∈ stableSort le l ↔ a ∈ l := (perm_stableSort le l).mem_iff

section Order
variable (trans : ∀ a b c, le a b = true → le b c = true → le a c = true)

include trans

theorem filter_stableSort (a : α) (l : List α) :
    (stableSort le l).filter (fun b => le a b && le b a) = l.filter fun b => le a b && le b a := by
  have htied : (l.filter fun b => le a b && le b a).Pairwise (le · · = true) := by
    rw [List.pairwise_filter]
    refine List.pairwise_of_forall fun b c hb hc => ?_
    rw [Bool.and_eq_true] at hb hc
    exact trans b a c hb.2 hc.1
  have hkept := (List.sublist_insertionSort htied List.filter_sublist).filter
    fun b => le a b && le b a
  rw [← stableSort_eq_insertionSort, List.filter_filter] at hkept
  simp only [Bool.and_self] at hkept
  exact (hkept.eq_of_length ((perm_stableSort le l).filter _).length_eq.symm).symm

variable (total : ∀ a b, le a b = true ∨ le b a = true)

include total

theorem pairwise_stableSort (l : List α) : (stableSort le l).Pairwise (le · · = true) := by
  have : Std.Total (le · · = true) := ⟨total⟩
  have : IsTrans α (le · · = true) := ⟨trans⟩
  rw [stableSort_eq_insertionSort]
  exact List.pairwise_insertionSort _ l

theorem pairwise_stableSort_of_tied {R : α → α → Prop} (h : l.Pairwise R) :
    (stableSort le l).Pairwise fun a b => le a b = true ∧ (le b a = true → R a b) := by
  rw [List.pairwise_iff_forall_sublist]
  intro a b hab
  have hle : le a b = true :=
    List.pairwise_iff_forall_sublist.1 (pairwise_stableSort trans total l) hab
  refine ⟨hle, fun hba => ?_⟩
  have haa : le a a = true := (total a a).elim id id
  have hpair := hab.filter fun c => le a c && le c a
  rw [filter_stableSort trans] at hpair
  simp only [List.filter_cons, haa, hle, hba, Bool.and_self, if_true, List.filter_nil] at hpair
  exact List.pairwise_iff_forall_sublist.1 h (hpair.trans List.filter_sublist)

end Order

end FindQuery
