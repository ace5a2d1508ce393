import FindQuery.Binary64.Print
import FindQuery.Proofs.Binary64.Literal
import FindQuery.Proofs.Binary64.Shortest

/-! Decimals as they are printed, with a point or with an exponent. -/

namespace FindQuery.Binary64
open Numeral (AreDigits spelled signed IsSign spelled_append spelled_zeros spelled_append_zeros areDigits_zeros)

def spelledAt (digits : Text) (place : Int) : ℚ := spelled digits * 10 ^ (place + 1 - digits.length)

def Denotes (s : Text) (r : ℚ) : Prop := ∃ d : Decimal, IsDecimal s d.coefficient d.exponent ∧ d.toRat = r

theorem IsDecimal.denotes {s : Text} {c : Nat} {e : Int} (h : IsDecimal s c e) : Denotes s (c * 10 ^ e) :=
  ⟨⟨c, e⟩, h, rfl⟩

section Positional
variable {digits : Text} {place : Int}

theorem denotes_pointed (whole fraction : Text) (hwhole : AreDigits whole) (hfraction : AreDigits fraction)
    (hne : whole ≠ []) :
    Denotes (whole ++ '.' :: fraction) (spelled (whole ++ fraction) * 10 ^ (-(fraction.length : Int))) := by
  have hdecimal := IsDecimal.pointed (.inl hne) hwhole hfraction .absent
  rw [List.append_nil, zero_sub] at hdecimal
  exact hdecimal.denotes

theorem denotes_positional_of_neg (hdigits : AreDigits digits) (hplace : place < 0) :
    Denotes (positional digits place) (spelledAt digits place) := by
  obtain ⟨k, rfl⟩ : ∃ k : Nat, place = -(k + 1 : Int) := ⟨place.natAbs - 1, by omega⟩
  have hzeros : (-(k + 1 : Int)).natAbs - 1 = k := by omega
  have hdenotes := denotes_pointed ['0'] (List.replicate k '0' ++ digits) (by decide)
    ((areDigits_zeros k).append hdigits) (List.cons_ne_nil _ _)
  have hspelled : spelled (['0'] ++ (List.replicate k '0' ++ digits)) = spelled digits :=
    Numeral.spelled_zeros_append (k + 1) digits
  have hlength : (-((List.replicate k '0' ++ digits).length : Int)) = -(k + 1 : Int) + 1 - digits.length := by
    rw [List.length_append, List.length_replicate]
    omega
  rw [hspelled, hlength] at hdenotes
  rw [positional, if_pos hplace, hzeros]
  exact hdenotes

theorem denotes_positional_of_fraction {width : Nat} (hdigits : AreDigits digits) (hwidth : width < digits.length)
    (hplace : place + 1 = width) (hpos : 0 < width) :
    Denotes (digits.take width ++ '.' :: digits.drop width) (spelledAt digits place) := by
  have hne : digits.take width ≠ [] := List.ne_nil_of_length_pos (by rw [List.length_take]; omega)
  have hdenotes := denotes_pointed (digits.take width) (digits.drop width)
    (fun c hc => hdigits c (List.mem_of_mem_take hc)) (fun c hc => hdigits c (List.mem_of_mem_drop hc)) hne
  have hlength : (-((digits.drop width).length : Int)) = place + 1 - digits.length := by
    rw [List.length_drop, hplace]
    omega
  rwa [List.take_append_drop, hlength] at hdenotes

theorem denotes_positional_of_whole {k : Nat} (hdigits : AreDigits digits) (hne : digits ≠ [])
    (hplace : place + 1 = digits.length + k) :
    Denotes (digits ++ List.replicate k '0' ++ ".0".toList) (spelledAt digits place) := by
  have hdenotes := denotes_pointed _ ['0'] (hdigits.append (areDigits_zeros k)) (by decide)
    (List.append_ne_nil_of_left_ne_nil hne _)
  have hspelled : spelled (digits ++ List.replicate k '0' ++ ['0']) = spelled digits * 10 ^ (k + 1) := by
    rw [List.append_assoc, ← List.replicate_succ', spelled_append_zeros]
  have hvalue : ((spelled digits * 10 ^ (k + 1) : Nat) : ℚ) * 10 ^ (-((['0'] : Text).length : Int)) =
      spelledAt digits place := by
    have hshift : place + 1 - digits.length = ((k + 1 : Nat) : Int) + -(1 : Int) := by omega
    rw [spelledAt, hshift, zpow_add₀ (by norm_num), zpow_natCast, ← mul_assoc, Nat.cast_mul, Nat.cast_pow,
      Nat.cast_ofNat]
    rfl
  rwa [hspelled, hvalue] at hdenotes

theorem denotes_positional (hdigits : AreDigits digits) (hne : digits ≠ []) (place : Int) :
    Denotes (positional digits place) (spelledAt digits place) := by
  by_cases hplace : place < 0
  · exact denotes_positional_of_neg hdigits hplace
  · obtain ⟨n, rfl⟩ := Int.eq_ofNat_of_zero_le (not_lt.1 hplace)
    rw [positional, if_neg hplace]
    simp only [Int.toNat_natCast]
    by_cases hwidth : n + 1 < digits.length
    · have hzeros : n + 1 - digits.length = 0 := by omega
      have hfraction : digits.drop (n + 1) ≠ [] := List.ne_nil_of_length_pos (by rw [List.length_drop]; omega)
      rw [hzeros, List.replicate_zero, List.append_nil, if_neg hfraction]
      exact denotes_positional_of_fraction hdigits hwidth rfl (Nat.succ_pos n)
    · have hle : digits.length ≤ n + 1 := not_lt.1 hwidth
      rw [List.take_of_length_le hle, List.drop_eq_nil_of_le hle, if_pos rfl]
      exact denotes_positional_of_whole hdigits hne (by omega)

end Positional

section Scientific
variable {digits : Text} {place : Int}

theorem isExponent_place (place : Int) :
    IsExponent ('e' :: (if place < 0 then '-' else '+') :: Numeral.padded 2 place.natAbs) place := by
  have hexponent {negative : Bool} {sign : Text} (hsign : IsSign negative sign) :
      IsExponent ('e' :: (sign ++ Numeral.padded 2 place.natAbs)) (signed negative place.natAbs) := by
    have hmarked := IsExponent.marked (.inl rfl) hsign (Numeral.padded_ne_nil 2 place.natAbs)
      (Numeral.areDigits_padded 2 place.natAbs)
    rwa [Numeral.spelled_padded] at hmarked
  by_cases hplace : place < 0
  · have hvalue : signed true place.natAbs = place := by
      show -(place.natAbs : Int) = place
      omega
    have hminus := hexponent .minus
    rw [hvalue] at hminus
    rw [if_pos hplace]
    exact hminus
  · have hvalue : signed false place.natAbs = place := by
      show (place.natAbs : Int) = place
      omega
    have hplus := hexponent .plus
    rw [hvalue] at hplus
    rw [if_neg hplace]
    exact hplus

theorem denotes_scientific (hdigits : AreDigits digits) (hne : digits ≠ []) (place : Int) :
    Denotes (scientific digits place) (spelledAt digits place) := by
  have hexponent := isExponent_place place
  match digits with
  | [] => exact absurd rfl hne
  | [d] =>
    have hdenotes := (IsDecimal.whole hne hdigits hexponent).denotes
    rw [spelledAt, List.length_singleton, Nat.cast_one, add_sub_cancel_right]
    exact hdenotes
  | d :: e :: rest =>
    obtain ⟨hd, hrest⟩ := List.forall_mem_cons.1 hdigits
    have hdenotes := (IsDecimal.pointed (.inl (List.cons_ne_nil d [])) (List.forall_mem_singleton.2 hd) hrest
      hexponent).denotes
    have hlength : place + 1 - ((d :: e :: rest).length : Int) = place - ((e :: rest).length : Int) := by
      rw [List.length_cons, Nat.cast_succ]
      omega
    have htext : scientific (d :: e :: rest) place = [d] ++ '.' :: (e :: rest ++
        'e' :: (if place < 0 then '-' else '+') :: Numeral.padded 2 place.natAbs) :=
      List.append_assoc (d :: '.' :: e :: rest) _ _
    rw [spelledAt, hlength, htext]
    exact hdenotes

end Scientific

section Print
variable {d : Decimal} {s : Text}

theorem exists_dropTrailingZeros (s : Text) : ∃ k, s = dropTrailingZeros s ++ List.replicate k '0' := by
  have hzeros : s.reverse.takeWhile (· = '0') =
      List.replicate (s.reverse.takeWhile (· = '0')).length '0' := by
    apply List.eq_replicate_of_mem
    intro c hc
    exact of_decide_eq_true (List.mem_takeWhile_imp (p := fun c => decide (c = '0')) hc)
  refine ⟨(s.reverse.takeWhile (· = '0')).length, ?_⟩
  rw [← List.reverse_replicate, ← hzeros, dropTrailingZeros, ← List.reverse_append,
    List.takeWhile_append_dropWhile, List.reverse_reverse]

theorem spelledAt_dropTrailingZeros (d : Decimal) :
    spelledAt (dropTrailingZeros (Numeral.ofNat d.coefficient))
      (d.exponent + (Numeral.ofNat d.coefficient).length - 1) = d.toRat := by
  obtain ⟨k, hk⟩ := exists_dropTrailingZeros (Numeral.ofNat d.coefficient)
  have hspelled : spelled (dropTrailingZeros (Numeral.ofNat d.coefficient)) * 10 ^ k = d.coefficient := by
    rw [← spelled_append_zeros, ← hk, Numeral.spelled_ofNat]
  have hlength : (Numeral.ofNat d.coefficient).length =
      (dropTrailingZeros (Numeral.ofNat d.coefficient)).length + k := by
    conv_lhs => rw [hk]
    rw [List.length_append, List.length_replicate]
  have hshift : d.exponent + (Numeral.ofNat d.coefficient).length - 1 + 1 -
      (dropTrailingZeros (Numeral.ofNat d.coefficient)).length = (k : Int) + d.exponent := by
    omega
  rw [spelledAt, hshift, zpow_add₀ (by norm_num), zpow_natCast, ← mul_assoc, Decimal.toRat]
  conv_rhs => rw [← hspelled]
  rw [Nat.cast_mul, Nat.cast_pow, Nat.cast_ofNat]

theorem dropTrailingZeros_ofNat_ne_nil {n : Nat} (h : n ≠ 0) : dropTrailingZeros (Numeral.ofNat n) ≠ [] := by
  intro hnil
  obtain ⟨k, hk⟩ := exists_dropTrailingZeros (Numeral.ofNat n)
  rw [hnil, List.nil_append] at hk
  have hspelled := Numeral.spelled_ofNat (n := n)
  rw [hk, spelled_zeros] at hspelled
  exact h hspelled.symm

theorem denotes_print (h : d.coefficient ≠ 0) : Denotes d.print d.toRat := by
  have hdigits : AreDigits (dropTrailingZeros (Numeral.ofNat d.coefficient)) := by
    obtain ⟨k, hk⟩ := exists_dropTrailingZeros (Numeral.ofNat d.coefficient)
    intro c hc
    have hmem := List.mem_append_left (List.replicate k '0') hc
    rw [← hk] at hmem
    exact Numeral.isDigit_of_mem_ofNat hmem
  have hne := dropTrailingZeros_ofNat_ne_nil h
  rw [← spelledAt_dropTrailingZeros]
  simp only [Decimal.print]
  split
  · exact denotes_positional hdigits hne _
  · exact denotes_scientific hdigits hne _

end Print

section Number
variable {x : Binary64} {d : Decimal} {s sign : Text}

theorem exists_isLiteral_of_readsBack (hsign : IsSign x.negative sign) (hread : d.ReadsBack x)
    (hs : Denotes s d.toRat) : ∃ l, IsLiteral (sign ++ s) l ∧ l.value = x := by
  obtain ⟨d', hdecimal, hvalue⟩ := hs
  exact ⟨_, .decimal hsign hdecimal, hread.congr hvalue⟩

theorem exists_denotes_printMagnitude (h : x.IsFinite) :
    ∃ d : Decimal, d.ReadsBack x ∧ Denotes x.printMagnitude d.toRat := by
  by_cases hunits : x.units = 0
  · have hzero : x.magnitude = 0 := by rw [magnitude, hunits, Nat.cast_zero, zero_div]
    have hdenotes : Denotes "0.0".toList 0 := by
      have hpointed := denotes_pointed ['0'] ['0'] (by decide) (by decide) (List.cons_ne_nil _ _)
      have hspelled : spelled (['0'] ++ ['0']) = 0 := spelled_zeros 2
      rwa [hspelled, Nat.cast_zero, zero_mul] at hpointed
    have htoRat : Decimal.toRat ⟨0, 0⟩ = 0 := by rw [Decimal.toRat, Nat.cast_zero, zero_mul]
    refine ⟨⟨0, 0⟩, Decimal.readsBack_of_toRat h (htoRat.trans hzero.symm), ?_⟩
    rw [printMagnitude, if_pos hunits, htoRat]
    exact hdenotes
  · have hread := readsBack_shortest h
    refine ⟨x.shortest, hread, ?_⟩
    rw [printMagnitude, if_neg hunits]
    exact denotes_print (hread.coefficient_ne_zero hunits)

theorem print_eq (h : ¬ x.IsNaN) : ∃ sign, IsSign x.negative sign ∧
    x.print = sign ++ if x.IsFinite then x.printMagnitude else "inf".toList := by
  rw [print, if_neg h]
  cases x.negative with
  | false => exact ⟨[], .absent, rfl⟩
  | true => exact ⟨['-'], .minus, rfl⟩

theorem exists_isLiteral_print (h : ¬ x.IsNaN) : ∃ l, IsLiteral x.print l ∧ l.value = x := by
  obtain ⟨sign, hsign, hprint⟩ := print_eq h
  rw [hprint]
  by_cases hfinite : x.IsFinite
  · obtain ⟨d, hread, hdenotes⟩ := exists_denotes_printMagnitude hfinite
    rw [if_pos hfinite]
    exact exists_isLiteral_of_readsBack hsign hread hdenotes
  · rw [if_neg hfinite]
    exact ⟨.infinity x.negative, .infinity hsign (by decide), (eq_infinity h hfinite).symm⟩

end Number

end FindQuery.Binary64
