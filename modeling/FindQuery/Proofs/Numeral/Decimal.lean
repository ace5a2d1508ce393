import FindQuery.Numeral.Decimal

/-! Decimal numerals that are written are read back. -/

namespace FindQuery.Numeral

theorem decimalValue?_digitChar {d : Nat} (h : d < 10) :
    Text.decimalValue? d.digitChar = some d := by
  have hall : ∀ d < 10, Text.decimalValue? (Nat.digitChar d) = some d := by decide
  exact hall d h

theorem ofNat_of_lt {n : Nat} (h : n < 10) : ofNat n = [n.digitChar] :=
  Nat.toDigits_of_lt_base h

theorem ofNat_of_le {n : Nat} (h : 10 ≤ n) :
    ofNat n = ofNat (n / 10) ++ [(n % 10).digitChar] :=
  Nat.toDigits_of_base_le (by decide) h

theorem ofNat_ne_nil (n : Nat) : ofNat n ≠ [] := Nat.toDigits_ne_nil

theorem ofDigits_append_singleton (base : Nat) (ds : List Nat) (d : Nat) :
    ofDigits base (ds ++ [d]) = ofDigits base ds * base + d := by
  rw [ofDigits, List.foldl_append]
  rfl

theorem length_leadingDigits_le (s : Text) : (leadingDigits s).length ≤ s.length := by
  induction s with
  | nil => exact Nat.le_refl 0
  | cons c rest ih =>
    rw [leadingDigits]
    split
    · exact Nat.zero_le _
    · exact Nat.succ_le_succ ih

theorem length_leadingDigits_lt_iff {s : Text} :
    (leadingDigits s).length < s.length ↔ ∃ c ∈ s, Text.decimalValue? c = none := by
  induction s with
  | nil => simp [leadingDigits]
  | cons c rest ih =>
    cases hc : Text.decimalValue? c with
    | none => simp [leadingDigits, hc]
    | some d => simp [leadingDigits, hc, ih]

theorem leadingDigits_append_singleton {s : Text} (h : ∀ c ∈ s, Text.decimalValue? c ≠ none)
    {c : Char} {d : Nat} (hc : Text.decimalValue? c = some d) :
    leadingDigits (s ++ [c]) = leadingDigits s ++ [d] := by
  induction s with
  | nil => simp only [List.nil_append, leadingDigits, hc]
  | cons a rest ih =>
    have ha := h a List.mem_cons_self
    have hrest := ih fun b hb => h b (List.mem_cons_of_mem a hb)
    rw [List.cons_append, leadingDigits, leadingDigits]
    cases hv : Text.decimalValue? a with
    | none => exact absurd hv ha
    | some v => simp only [hrest, List.cons_append]

theorem decimalValue?_of_mem_ofNat {n : Nat} {c : Char} (h : c ∈ ofNat n) :
    ∃ d < 10, c = d.digitChar ∧ Text.decimalValue? c = some d := by
  induction n using Nat.strongRecOn with
  | ind n ih =>
    by_cases hn : n < 10
    · rw [ofNat_of_lt hn, List.mem_singleton] at h
      subst h
      exact ⟨n, hn, rfl, decimalValue?_digitChar hn⟩
    · have hmod : n % 10 < 10 := Nat.mod_lt n (by decide)
      rw [ofNat_of_le (by omega), List.mem_append, List.mem_singleton] at h
      rcases h with h | rfl
      · exact ih (n / 10) (by omega) h
      · exact ⟨n % 10, hmod, rfl, decimalValue?_digitChar hmod⟩

theorem ofDigits_leadingDigits_ofNat (n : Nat) : ofDigits 10 (leadingDigits (ofNat n)) = n := by
  induction n using Nat.strongRecOn with
  | ind n ih =>
    by_cases hn : n < 10
    · rw [ofNat_of_lt hn, leadingDigits, decimalValue?_digitChar hn]
      show 0 * 10 + n = n
      omega
    · have hmod : n % 10 < 10 := Nat.mod_lt n (by decide)
      have hdigits : ∀ c ∈ ofNat (n / 10), Text.decimalValue? c ≠ none := by
        intro c hc
        obtain ⟨d, -, -, hd⟩ := decimalValue?_of_mem_ofNat hc
        rw [hd]
        exact Option.some_ne_none d
      rw [ofNat_of_le (by omega), leadingDigits_append_singleton hdigits
        (decimalValue?_digitChar hmod), ofDigits_append_singleton, ih (n / 10) (by omega)]
      omega

theorem ofNat_injective {m n : Nat} (h : ofNat m = ofNat n) : m = n := by
  rw [← ofDigits_leadingDigits_ofNat m, h, ofDigits_leadingDigits_ofNat]

theorem length_leadingDigits_ofNat (n : Nat) :
    (leadingDigits (ofNat n)).length = (ofNat n).length := by
  have hle := length_leadingDigits_le (ofNat n)
  have hlt : ¬ (leadingDigits (ofNat n)).length < (ofNat n).length := by
    rw [length_leadingDigits_lt_iff]
    rintro ⟨c, hc, hnone⟩
    obtain ⟨d, -, -, hd⟩ := decimalValue?_of_mem_ofNat hc
    rw [hd] at hnone
    exact nomatch hnone
  omega

theorem read_ofNat {n : Nat} (h : digitCount n ≤ maxDigits) : read (ofNat n) = .ok n := by
  have hlength := length_leadingDigits_ofNat n
  have hshort : ¬ maxDigits < (leadingDigits (ofNat n)).length := by
    rw [hlength]
    exact Nat.not_lt.2 h
  have hfull : ¬ (ofNat n = [] ∨ (leadingDigits (ofNat n)).length < (ofNat n).length) := by
    rw [hlength, not_or]
    exact ⟨ofNat_ne_nil n, Nat.lt_irrefl _⟩
  simp only [read, if_neg hshort, if_neg hfull, ofDigits_leadingDigits_ofNat]

theorem read_eq_error_iff {s : Text} (h : s ≠ []) :
    (∃ e, read s = .error e) ↔
      (∃ c ∈ s, Text.decimalValue? c = none) ∨ maxDigits < s.length := by
  have hle := length_leadingDigits_le s
  rw [← length_leadingDigits_lt_iff]
  unfold read
  by_cases hlong : maxDigits < (leadingDigits s).length
  · simp only [if_pos hlong, Except.error.injEq, exists_eq', true_iff]
    exact .inr (by omega)
  · by_cases hlt : (leadingDigits s).length < s.length
    · simp only [if_neg hlong, hlt, or_true, if_true, Except.error.injEq, exists_eq',
        true_or]
    · simp only [if_neg hlong, h, hlt, or_self, if_false, false_or]
      constructor
      · rintro ⟨e, he⟩
        exact nomatch he
      · intro hs
        omega

end FindQuery.Numeral
