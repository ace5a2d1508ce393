import FindQuery.Node.Print
import FindQuery.Proofs.Binary64.Print
import FindQuery.Proofs.Coerce.Word

/-! Numbers as leaves print them. -/

namespace FindQuery.Coerce
open Numeral (IsSign)
open Binary64 (IsLiteral nonfiniteWords)

section Literal
variable {s : Text}

theorem isNull_of_isNonfinite (h : IsNonfinite s) : isNull s = false := by
  obtain ⟨negative, sign, word, rfl, hsign, hword⟩ := h
  have hall : ∀ word ∈ nonfiniteWords, ∀ sign ∈ [[], ['+'], ['-']],
      sign ++ word ≠ "null".toList ∧ sign ++ word ≠ "nil".toList := by
    decide
  have hlower : Text.lowerAscii (sign ++ word) = sign ++ Text.lowerAscii word ∧
      sign ∈ [[], ['+'], ['-']] := by
    cases hsign with
    | absent => exact ⟨rfl, by decide⟩
    | plus => exact ⟨rfl, by decide⟩
    | minus => exact ⟨rfl, by decide⟩
  obtain ⟨hnull, hnil⟩ := hall _ hword sign hlower.2
  rw [isNull, hlower.1, Bool.or_eq_false_iff]
  exact ⟨decide_eq_false hnull, decide_eq_false hnil⟩

theorem isNull_of_isFloat (h : IsFloat s) : isNull s = false := by
  by_cases hdigits : Text.HasNoDigit s
  · exact isNull_of_isNonfinite ((isFloat_iff_isNonfinite hdigits).1 h)
  · obtain ⟨c, hc, hdigit⟩ : ∃ c ∈ s, c.isDigit = true := by
      simpa only [Text.HasNoDigit, not_forall, Bool.not_eq_false, exists_prop] using hdigits
    exact isNull_eq_false_of_isDigit hc hdigit

theorem ne_nil_of_isFloat (h : IsFloat s) : s ≠ [] := by
  rintro rfl
  exact absurd (isFloat_iff.1 h) (by decide)

end Literal

section Leaf
variable {operator : Operator} {field : Text} {x : Binary64}

theorem value_of_float? [Host] {s : Text} (hlisting : ¬ IsListing operator) (hregex : operator ≠ .regex)
    (h : float? s = some x) : value operator s = .ok (.float x) := by
  have hfloat : IsFloat s := isFloat_iff.2 (Option.isSome_iff_exists.2 ⟨x, h⟩)
  rw [value_eq_scalar hlisting hregex (ne_nil_of_isFloat hfloat) (isNull_of_isFloat hfloat)]
  exact scalar_of_isReadAs (.float h)

theorem write_leaf_float (operator : Operator) (hfield : field ≠ []) (x : Binary64) :
    (Node.leaf operator field (.float x)).write =
      .ok (field ++ ' ' :: operator.token ++ ' ' :: x.print) := by
  have hwritable : (Node.leaf operator field (.float x)).isWritable = true := rfl
  have hprint : (Node.leaf operator field (.float x)).print =
      if field = [] then operator.token ++ ": ".toList ++ x.print
      else field ++ ' ' :: operator.token ++ ' ' :: x.print := rfl
  rw [Node.write, hwritable, if_pos rfl, hprint, if_neg hfield]

/-- What a leaf prints behind its operator for a number is read as this number under the operator, be it a zero or an
infinity of either sign. -/
theorem value_written_float [Host] (hlisting : ¬ IsListing operator) (hregex : operator ≠ .regex)
    (hfield : field ≠ []) (hnan : ¬ x.IsNaN) :
    ∃ text, (Node.leaf operator field (.float x)).write =
        .ok (field ++ ' ' :: operator.token ++ ' ' :: text) ∧
      value operator text = .ok (.float x) := by
  refine ⟨x.print, write_leaf_float operator hfield x, ?_⟩
  exact value_of_float? hlisting hregex (float?_eq_some_iff.2 (Binary64.exists_isLiteral_print hnan))

theorem value_written_float_leastNegative :
    (Node.leaf .gte ['q', 't', 'y'] (.float ⟨true, 0, 1⟩)).write = .ok "qty $gte -5e-324".toList ∧
      value .gte "-5e-324".toList = .ok (.float ⟨true, 0, 1⟩) := by
  have hwrite : (Node.leaf .gte ['q', 't', 'y'] (.float ⟨true, 0, 1⟩)).write =
      .ok "qty $gte -5e-324".toList := by
    decide +kernel
  obtain ⟨text, htext, hvalue⟩ := @value_written_float .gte ['q', 't', 'y'] ⟨true, 0, 1⟩ _
    (by decide) (by decide) (by decide) (by decide)
  have hsame : "qty $gte ".toList ++ text = "qty $gte ".toList ++ "-5e-324".toList :=
    Except.ok.inj (htext.symm.trans hwrite)
  obtain rfl := List.append_cancel_left hsame
  exact ⟨hwrite, hvalue⟩

end Leaf

end FindQuery.Coerce
