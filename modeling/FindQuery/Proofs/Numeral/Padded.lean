import FindQuery.Proofs.Numeral.Literal

/-! The language of padded numerals. -/

namespace FindQuery.Numeral

def ArePadding (s : Text) : Prop := ∀ c ∈ s, Text.isBlank c = true ∧ ¬ (28 ≤ c.toNat ∧ c.toNat ≤ 31)

/-- A padded numeral, and its number. -/
def IsPadded (s : Text) (n : Int) : Prop :=
  ∃ before negative sign digits ds after, s = before ++ (sign ++ digits) ++ after ∧
    ArePadding before ∧ ArePadding after ∧ IsSign negative sign ∧
    Grouped (fun c d => Text.decimalValue? c = some d) digits ds ∧ ds.length ≤ maxDigits ∧
    n = signed negative (Nat.ofDigits 10 ds.reverse)

section Characters
variable {c : Char} {d : Nat}

theorem isPadding_iff : isPadding c = true ↔
    Text.isBlank c = true ∧ ¬ (28 ≤ c.toNat ∧ c.toNat ≤ 31) := by
  by_cases hc : c.toNat < 128
  · have hall : ∀ k < 128, isPadding (Char.ofNat k) = true ↔ Text.isBlank (Char.ofNat k) = true ∧
        ¬ (28 ≤ (Char.ofNat k).toNat ∧ (Char.ofNat k).toNat ≤ 31) := by
      decide +kernel
    exact Text.of_toNat_lt c hc hall
  · have hline : isLineBlank c = false := by
      rw [isLineBlank, Bool.or_eq_false_iff]
      refine ⟨decide_eq_false ?_, Bool.and_eq_false_iff.2 (.inr (decide_eq_false (by omega)))⟩
      rintro rfl
      exact hc (by decide)
    rw [isPadding, hline, Bool.false_or, decide_eq_true (show 127 < c.toNat by omega), Bool.true_and,
      and_iff_left (show ¬ (28 ≤ c.toNat ∧ c.toNat ≤ 31) by omega)]

theorem isBlank_of_decimalValue? (h : Text.decimalValue? c = some d) : Text.isBlank c = false := by
  have hapart : ∀ digits ∈ Text.decimalRanges, ∀ blanks ∈ Text.blankRanges,
      digits.2 < blanks.1 ∨ blanks.2 < digits.1 := by
    decide +kernel
  obtain ⟨start, hstart, -⟩ := Option.map_eq_some_iff.1 h
  obtain ⟨stop, hdigits, hfrom, hto⟩ := Text.exists_range_of_rangeStart? hstart
  rw [Bool.eq_false_iff]
  intro hblank
  obtain ⟨low, hlow⟩ := Option.isSome_iff_exists.1 hblank
  obtain ⟨high, hblanks, hge, hle⟩ := Text.exists_range_of_rangeStart? hlow
  rcases hapart _ hdigits _ hblanks with hbelow | habove
  · exact absurd hge (Nat.not_le.2 (Nat.lt_of_le_of_lt hto hbelow))
  · exact absurd hfrom (Nat.not_le.2 (Nat.lt_of_le_of_lt hle habove))

theorem isPadding_eq_false (h : Text.isBlank c = false) : isPadding c = false := by
  rw [Bool.eq_false_iff, Ne, isPadding_iff, h]
  exact fun hboth => Bool.false_ne_true hboth.1

end Characters

section Grouped
variable {IsValue : Char → Nat → Prop} {s : Text} {ds : List Nat}

theorem Grouped.forall_mem (h : Grouped IsValue s ds) : ∀ c ∈ s, c = '_' ∨ ∃ d, IsValue c d := by
  induction h with
  | last hc => exact List.forall_mem_singleton.2 (.inr ⟨_, hc⟩)
  | next hc _ ih => exact List.forall_mem_cons.2 ⟨.inr ⟨_, hc⟩, ih⟩
  | parted hc _ ih =>
    exact List.forall_mem_cons.2 ⟨.inr ⟨_, hc⟩, List.forall_mem_cons.2 ⟨.inl rfl, ih⟩⟩

theorem Grouped.forall_digit (h : Grouped IsValue s ds) : ∀ d ∈ ds, ∃ c, IsValue c d := by
  induction h with
  | last hc => exact List.forall_mem_singleton.2 ⟨_, hc⟩
  | next hc _ ih => exact List.forall_mem_cons.2 ⟨⟨_, hc⟩, ih⟩
  | parted hc _ ih => exact List.forall_mem_cons.2 ⟨⟨_, hc⟩, ih⟩

end Grouped

section Decimal
variable {digits sign : Text} {ds : List Nat} {negative : Bool}

theorem groupedDigits?_decimalValue? : groupedDigits? Text.decimalValue? digits = some ds ↔
    Grouped (fun c d => Text.decimalValue? c = some d) digits ds :=
  ⟨grouped_of_groupedDigits?, groupedDigits?_of_grouped (by decide)⟩

theorem hasNoSign_of_grouped (h : Grouped (fun c d => Text.decimalValue? c = some d) digits ds) :
    HasNoSign digits := by
  cases digits with
  | nil => exact absurd rfl h.ne_nil
  | cons c rest =>
    obtain ⟨d, _, -, hd⟩ := h.exists_cons
    rintro e he
    obtain rfl := Option.some.inj he
    constructor
    · rintro rfl
      exact nomatch hd
    · rintro rfl
      exact nomatch hd

theorem isPadding_of_mem_numeral (hsign : IsSign negative sign)
    (h : Grouped (fun c d => Text.decimalValue? c = some d) digits ds) :
    ∀ c ∈ sign ++ digits, isPadding c = false := by
  refine List.forall_mem_append.2 ⟨?_, fun c hc => ?_⟩
  · cases hsign with
    | absent => exact nofun
    | plus => exact List.forall_mem_singleton.2 (by decide)
    | minus => exact List.forall_mem_singleton.2 (by decide)
  · rcases h.forall_mem c hc with rfl | ⟨d, hd⟩
    · decide
    · exact isPadding_eq_false (isBlank_of_decimalValue? hd)

end Decimal

section Padded
variable {s : Text} {n : Int}

theorem padded?_eq_some_iff : padded? s = some n ↔ IsPadded s n := by
  simp only [padded?, Option.map_eq_some_iff, decimal?_eq_some_iff_groupedDigits?,
    groupedDigits?_decimalValue?]
  constructor
  · rintro ⟨m, ⟨ds, hds, hlength, rfl⟩, rfl⟩
    obtain ⟨sign, hsign, hbody⟩ := exists_sign_of_takeSign (s := Text.stripWith isPadding s) rfl
    obtain ⟨before, after, hs, hbefore, hafter⟩ := Text.exists_stripWith isPadding s
    rw [hbody] at hs
    exact ⟨before, _, sign, _, ds, after, hs, fun c hc => isPadding_iff.1 (hbefore c hc),
      fun c hc => isPadding_iff.1 (hafter c hc), hsign, hds, hlength, rfl⟩
  · rintro ⟨before, negative, sign, digits, ds, after, rfl, hbefore, hafter, hsign, hds, hlength, rfl⟩
    have hstrip : Text.stripWith isPadding (before ++ (sign ++ digits) ++ after) = sign ++ digits :=
      Text.stripWith_append (fun c hc => isPadding_iff.2 (hbefore c hc))
        (fun c hc => isPadding_iff.2 (hafter c hc)) (List.append_ne_nil_of_right_ne_nil sign hds.ne_nil)
        (isPadding_of_mem_numeral hsign hds)
    rw [hstrip, takeSign_append hsign (hasNoSign_of_grouped hds)]
    exact ⟨_, ⟨ds, hds, hlength, rfl⟩, rfl⟩

theorem natAbs_signed (negative : Bool) (n : Nat) : (signed negative n).natAbs = n := by
  cases negative with
  | false => exact Int.natAbs_natCast n
  | true => exact (Int.natAbs_neg n).trans (Int.natAbs_natCast n)

theorem IsPadded.isWritable (h : IsPadded s n) : isWritable n = true := by
  obtain ⟨before, negative, sign, digits, ds, after, -, -, -, -, hds, hlength, rfl⟩ := h
  have hdigit : ∀ d ∈ ds.reverse, d < 10 := by
    intro d hd
    obtain ⟨c, hc⟩ := hds.forall_digit d (List.mem_reverse.1 hd)
    exact Text.decimalValue?_lt hc
  have hlt : Nat.ofDigits 10 ds.reverse < 10 ^ maxDigits :=
    calc Nat.ofDigits 10 ds.reverse < 10 ^ ds.reverse.length :=
          Nat.ofDigits_lt_base_pow_length (by decide) hdigit
      _ ≤ 10 ^ maxDigits := by
          rw [List.length_reverse]
          exact Nat.pow_le_pow_right (by decide) hlength
  rw [Numeral.isWritable, natAbs_signed, decide_eq_true_eq]
  exact (Nat.length_toDigits_le_iff (by decide) (by decide)).2 hlt

end Padded

end FindQuery.Numeral
