import FindQuery.Proofs.Numeral.Notation
import FindQuery.Proofs.Request.Page

/-! Page numbers in every notation. -/

namespace FindQuery.Page
open Numeral (IsNotation IsSign signed)

variable {n : Nat} {s decimals : Text} {negative : Bool} {sign : Text} {params : Params}

theorem number?_of_isNotation (h : IsNotation n s) (hdecimals : IsZeroDecimals decimals)
    (hsign : IsSign negative sign) :
    number? (sign ++ (s ++ decimals)) = some (signed negative n) := by
  rw [← List.append_assoc, number?_eq_some_iff]
  refine .inl ⟨sign ++ s, decimals, rfl, hdecimals, ?_⟩
  exact (h.isLiteral hsign).imp_right Coerce.int?_eq_some_iff.2

section Reading
variable {k : Int}

theorem index_of_number? (h : number? (params.first "index".toList) = some k) :
    index params = max k 0 := by
  rw [index, h, Option.getD_some]

theorem size_of_number? (h : number? (params.first "size".toList) = some k) (default : Int) :
    size params default = if k ≤ 0 then default else k := by
  rw [size, requestedSize?, h, Option.bind_some]
  split_ifs with hk
  · rfl
  · rfl

end Reading

/-- A number in any notation is the index, and the size as well if it is positive. With a minus in front the index
is zero and the size is the usual one. -/
theorem page_of_isNotation (h : IsNotation n s) (hdecimals : IsZeroDecimals decimals) (params : Params)
    (default : Int) :
    (params.first "index".toList = s ++ decimals → index params = n) ∧
      (params.first "size".toList = s ++ decimals →
        size params default = if n = 0 then default else n) ∧
      (params.first "index".toList = '-' :: (s ++ decimals) → index params = 0) ∧
      (params.first "size".toList = '-' :: (s ++ decimals) → size params default = default) := by
  have hread := number?_of_isNotation h hdecimals .absent
  have hsigned := number?_of_isNotation h hdecimals IsSign.minus
  have hminus : number? ('-' :: (s ++ decimals)) = some (-(n : Int)) := hsigned
  refine ⟨fun hfirst => ?_, fun hfirst => ?_, fun hfirst => ?_, fun hfirst => ?_⟩
  · rw [index_of_number? (hfirst ▸ hread)]
    exact max_eq_left (Int.natCast_nonneg n)
  · rw [size_of_number? (hfirst ▸ hread)]
    simp only [signed, Bool.false_eq_true, if_false, Int.natCast_nonpos_iff]
  · rw [index_of_number? (hfirst ▸ hminus)]
    exact max_eq_right (by omega)
  · rw [size_of_number? (hfirst ▸ hminus), if_pos (by omega)]

theorem page_of_isNotation_tens : IsNotation 100 "100".toList ∧ IsNotation 255 "0xfF".toList ∧
    IsNotation 0 "00".toList ∧ IsZeroDecimals ".00".toList ∧
      index [("index".toList, ["100.00".toList]), ("size".toList, ["-0xfF.00".toList])] = 100 ∧
      size [("index".toList, ["100.00".toList]), ("size".toList, ["-0xfF.00".toList])] 20 = 20 ∧
      size [("size".toList, ["0xfF.00".toList, "7".toList])] 20 = 255 ∧
      index [("index".toList, ["-100.00".toList])] = 0 ∧ size [("size".toList, ["00.00".toList])] 20 = 20 := by
  have htens : IsNotation 100 "100".toList := .decimal (by decide +kernel)
  have hmark : ('x', 16) ∈ Numeral.marks := by decide
  have hhex : IsNotation 255 "0xfF".toList := .marked hmark (by decide +kernel)
  have hzero : IsNotation 0 "00".toList := .octal
  have hdecimals : IsZeroDecimals ".00".toList := .zeros 1
  refine ⟨htens, hhex, hzero, hdecimals, ?_, ?_, ?_, ?_, ?_⟩
  · exact (page_of_isNotation htens hdecimals _ 20).1 rfl
  · exact (page_of_isNotation hhex hdecimals _ 20).2.2.2 rfl
  · exact (page_of_isNotation hhex hdecimals _ 20).2.1 rfl
  · exact (page_of_isNotation htens hdecimals _ 20).2.2.1 rfl
  · exact (page_of_isNotation hzero hdecimals _ 20).2.1 rfl

end FindQuery.Page
