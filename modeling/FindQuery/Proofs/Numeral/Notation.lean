import FindQuery.Proofs.Numeral.Octal

/-! Every notation of a number is a literal of it. -/

namespace FindQuery.Numeral

/-- The ways to write a number. Behind a mark capitals may stand for small letters. -/
inductive IsNotation (n : Nat) : Text → Prop
  | decimal : digitCount n ≤ maxDigits → IsNotation n (ofNat n)
  | marked {mark : Char} {base : Nat} {digits : Text} : (mark, base) ∈ marks →
      Text.lowerAscii digits = Nat.toDigits base n → IsNotation n ('0' :: mark :: digits)
  | octal : IsNotation n ('0' :: Nat.toDigits 8 n)

structure AreDigitsOf (base n : Nat) (ds : List Nat) : Prop where
  lt : ∀ d ∈ ds, d < base
  value : Nat.ofDigits base ds.reverse = n
  head : ds.head? = some 0 → n = 0

section Digits
variable {base n : Nat} {s : Text} {ds : List Nat}

theorem exists_areDigitsOf (hbase : 1 < base) (n : Nat) :
    ∃ ds, AreDigitsOf base n ds ∧ Nat.toDigits base n = ds.map Nat.digitChar := by
  induction n using Nat.strongRecOn with
  | ind n ih =>
    by_cases hn : n < base
    · refine ⟨[n], ⟨List.forall_mem_singleton.2 hn, Nat.ofDigits_singleton, Option.some.inj⟩, ?_⟩
      rw [Nat.toDigits_of_lt_base hn]
      rfl
    · -- The last digit is the remainder, and those of the quotient stand in front of it.
      have hle : base ≤ n := Nat.not_lt.1 hn
      have hpos : 0 < n / base := Nat.div_pos hle (by omega)
      obtain ⟨ds, hds, hchars⟩ := ih (n / base) (Nat.div_lt_self (by omega) hbase)
      have hne : ds ≠ [] := by
        rintro rfl
        exact Nat.toDigits_ne_nil hchars
      refine ⟨ds ++ [n % base], ⟨?_, ?_, fun hhead => ?_⟩, ?_⟩
      · exact List.forall_mem_append.2
          ⟨hds.lt, List.forall_mem_singleton.2 (Nat.mod_lt n (by omega))⟩
      · rw [List.reverse_concat, Nat.ofDigits_cons, hds.value]
        exact Nat.mod_add_div n base
      · rw [List.head?_append_of_ne_nil ds hne] at hhead
        exact absurd (hds.head hhead) hpos.ne'
      · rw [Nat.toDigits_of_base_le hbase hle, hchars, List.map_append]
        rfl

theorem lowerAscii_toDigits (hbase : 1 < base) (hle : base ≤ 16) (n : Nat) :
    Text.lowerAscii (Nat.toDigits base n) = Nat.toDigits base n := by
  have hlower : ∀ d < 16, (Nat.digitChar d).toLower = Nat.digitChar d := by decide
  obtain ⟨ds, hds, hchars⟩ := exists_areDigitsOf hbase n
  rw [hchars, Text.lowerAscii, List.map_map]
  exact List.map_congr_left fun d hd => hlower d (Nat.lt_of_lt_of_le (hds.lt d hd) hle)

theorem forall₂_isDigit (hlt : ∀ d ∈ ds, d < base) (h : Text.lowerAscii s = ds.map Nat.digitChar) :
    List.Forall₂ (IsDigit base) s ds := by
  induction ds generalizing s with
  | nil =>
    obtain rfl := List.map_eq_nil_iff.1 h
    exact .nil
  | cons d ds ih =>
    obtain ⟨c, rest, rfl, hc, hrest⟩ := List.map_eq_cons_iff.1 h
    obtain ⟨hd, hds⟩ := List.forall_mem_cons.1 hlt
    exact .cons ⟨hd, hc⟩ (ih hds hrest)

theorem exists_forall₂_isDigit (hbase : 1 < base) (h : Text.lowerAscii s = Nat.toDigits base n) :
    ∃ ds, AreDigitsOf base n ds ∧ List.Forall₂ (IsDigit base) s ds ∧ s ≠ [] := by
  obtain ⟨ds, hds, hchars⟩ := exists_areDigitsOf hbase n
  refine ⟨ds, hds, forall₂_isDigit hds.lt (h.trans hchars), ?_⟩
  rintro rfl
  exact Nat.toDigits_ne_nil h.symm

end Digits

section Literal
variable {n : Nat} {s : Text}

theorem isUnsigned_ofNat (h : digitCount n ≤ maxDigits) : IsUnsigned (ofNat n) n := by
  obtain ⟨ds, hds, hdigits, hne⟩ :=
    exists_forall₂_isDigit (by decide) (lowerAscii_toDigits (show 1 < 10 by decide) (by decide) n)
  have hlength : ds.length ≤ maxDigits := hdigits.length_eq ▸ h
  have hfront : ds.head? = some 0 → ∀ d ∈ ds, d = 0 := by
    intro hhead
    rw [← ofDigits_reverse_eq_zero_iff (show 0 < 10 by decide), hds.value]
    exact hds.head hhead
  have hunsigned := IsUnsigned.decimal (grouped_of_forall₂ hne hdigits) hlength hfront
  rwa [hds.value] at hunsigned

theorem isUnsigned_marked {mark : Char} {base : Nat} {digits : Text} (hmark : (mark, base) ∈ marks)
    (h : Text.lowerAscii digits = Nat.toDigits base n) : IsUnsigned ('0' :: mark :: digits) n := by
  have hbases : ∀ p ∈ marks, 1 < p.2 := by decide
  obtain ⟨ds, hds, hdigits, hne⟩ := exists_forall₂_isDigit (hbases _ hmark) h
  have hunsigned := IsUnsigned.marked hmark (.inl rfl) (grouped_of_forall₂ hne hdigits)
  rwa [hds.value] at hunsigned

theorem IsNotation.isLiteral {negative : Bool} {sign : Text} (h : IsNotation n s)
    (hsign : IsSign negative sign) :
    IsZeroOctal (sign ++ s) (signed negative n) ∨ IsInteger (sign ++ s) (signed negative n) := by
  cases h with
  | decimal hcount => exact .inr ⟨negative, sign, _, n, rfl, hsign, isUnsigned_ofNat hcount, rfl⟩
  | marked hmark hdigits =>
    exact .inr ⟨negative, sign, _, n, rfl, hsign, isUnsigned_marked hmark hdigits, rfl⟩
  | octal =>
    obtain ⟨ds, hds, hdigits, hne⟩ :=
      exists_forall₂_isDigit (by decide) (lowerAscii_toDigits (show 1 < 8 by decide) (by decide) n)
    exact .inl ⟨negative, sign, _, ds, rfl, hsign, hne, hdigits, by rw [hds.value]⟩

end Literal

end FindQuery.Numeral
