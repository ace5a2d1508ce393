import FindQuery.Text.Basic

/-! Sets of code points given as ranges in ascending order. -/

namespace FindQuery.Text

def rangeStart? : List (Nat × Nat) → Nat → Option Nat
  | [], _ => none
  | (lo, hi) :: rest, n =>
    if n < lo then none else if n ≤ hi then some lo else rangeStart? rest n

def inRanges (ranges : List (Nat × Nat)) (n : Nat) : Bool := (rangeStart? ranges n).isSome

theorem exists_range_of_rangeStart? {ranges : List (Nat × Nat)} {n lo : Nat}
    (h : rangeStart? ranges n = some lo) : ∃ hi, (lo, hi) ∈ ranges ∧ lo ≤ n ∧ n ≤ hi := by
  induction ranges with
  | nil => simp [rangeStart?] at h
  | cons r rest ih =>
    obtain ⟨a, b⟩ := r
    simp only [rangeStart?] at h
    split at h
    · simp at h
    · next hlo =>
      split at h
      · next hhi =>
        simp only [Option.some.injEq] at h
        subst h
        exact ⟨b, List.mem_cons_self, by omega, hhi⟩
      · obtain ⟨hi, hm, hr⟩ := ih h
        exact ⟨hi, List.mem_cons_of_mem _ hm, hr⟩

end FindQuery.Text
