import FindQuery.Text.Basic

/-! The order of texts by code point. -/

namespace FindQuery.Text

def le : Text → Text → Bool
  | [], _ => true
  | _ :: _, [] => false
  | a :: as, b :: bs => a.toNat < b.toNat || (a = b && le as bs)

theorem le_total (s t : Text) : le s t = true ∨ le t s = true := by
  induction s generalizing t with
  | nil => simp [le]
  | cons a as ih =>
    cases t with
    | nil => simp [le]
    | cons b bs =>
      by_cases h : a = b
      · subst h
        simpa [le] using ih bs
      · have hn : a.toNat ≠ b.toNat := fun e => h (Char.toNat_inj.1 e)
        simp only [le, h, Ne.symm h, Bool.or_eq_true, decide_eq_true_eq]
        omega

theorem le_trans {s t u : Text} (h : le s t = true) (h' : le t u = true) :
    le s u = true := by
  induction s generalizing t u with
  | nil => rfl
  | cons a as ih =>
    cases t with
    | nil => simp [le] at h
    | cons b bs =>
      cases u with
      | nil => simp [le] at h'
      | cons c cs =>
        simp only [le, Bool.or_eq_true, Bool.and_eq_true, decide_eq_true_eq] at h h' ⊢
        rcases h with h | ⟨rfl, h⟩ <;> rcases h' with h' | ⟨rfl, h'⟩
        · exact .inl (by omega)
        · exact .inl h
        · exact .inl h'
        · exact .inr ⟨rfl, ih h h'⟩

end FindQuery.Text
