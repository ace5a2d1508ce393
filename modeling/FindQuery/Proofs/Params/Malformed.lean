import Mathlib.Data.List.Infix
import FindQuery.Proofs.Numeral.Literal
import FindQuery.Proofs.Params.Encoding

/-! Percent signs that open no escape. -/

namespace FindQuery.Escape
open Query (IsHexDigit smallHexDigits capitalHexDigits)

def HasByteInFront (s : Text) : Prop :=
  ∃ x y rest m n, s = x :: y :: rest ∧ IsHexDigit m x ∧ IsHexDigit n y

def IsBad (s : Text) : Prop := ∃ rest, s = '%' :: rest ∧ ¬ HasByteInFront rest

def HasBadEscape (s : Text) : Prop := ∃ bad, bad <:+ s ∧ IsBad bad

/-- The first of the bad escapes, shown with at most two characters that follow the percent sign. -/
def IsFirstBadEscape (s shown : Text) : Prop :=
  ∃ bad, bad <:+ s ∧ IsBad bad ∧ shown = bad.take 3 ∧
    ∀ other, other <:+ s → IsBad other → other <:+ bad

section Digits
variable {c : Char}

theorem hexValue?_eq_none_of_wide (h : 128 ≤ c.toNat) : hexValue? c = none :=
  Numeral.digitValue?_of_wide h 16

theorem hexValue?_eq_some_iff {n : Nat} : hexValue? c = some n ↔ IsHexDigit n c := by
  refine ⟨fun h => ?_, fun h => (Query.hexValue?_of_isHexDigit h).1⟩
  have hascii : c.toNat < 128 := by
    by_contra hwide
    rw [hexValue?_eq_none_of_wide (Nat.le_of_not_lt hwide)] at h
    exact nomatch h
  have hall : ∀ k < 128, ∀ n ∈ hexValue? (Char.ofNat k),
      smallHexDigits[n]? = some (Char.ofNat k) ∨ capitalHexDigits[n]? = some (Char.ofNat k) := by
    decide +kernel
  have hc : ∀ n ∈ hexValue? c, smallHexDigits[n]? = some c ∨ capitalHexDigits[n]? = some c :=
    Text.of_toNat_lt c hascii hall
  exact hc n h

theorem byte?_eq_some_iff {x y : Char} {b : Nat} :
    byte? x y = some b ↔ ∃ m n, IsHexDigit m x ∧ IsHexDigit n y ∧ b = m * 16 + n := by
  simp only [byte?, Option.bind_eq_bind, Option.bind_eq_some_iff, hexValue?_eq_some_iff]
  constructor
  · rintro ⟨m, hx, n, hy, heq⟩
    exact ⟨m, n, hx, hy, (Option.some.inj heq).symm⟩
  · rintro ⟨m, n, hx, hy, rfl⟩
    exact ⟨m, hx, n, hy, rfl⟩

theorem hasByteInFront_cons_cons {x y : Char} {rest : Text} :
    HasByteInFront (x :: y :: rest) ↔ (byte? x y).isSome = true := by
  rw [Option.isSome_iff_exists]
  constructor
  · rintro ⟨x', y', rest', m, n, heq, hx, hy⟩
    obtain ⟨rfl, htail⟩ := List.cons.inj heq
    obtain ⟨rfl, rfl⟩ := List.cons.inj htail
    exact ⟨_, byte?_eq_some_iff.2 ⟨m, n, hx, hy, rfl⟩⟩
  · rintro ⟨b, hb⟩
    obtain ⟨m, n, hx, hy, -⟩ := byte?_eq_some_iff.1 hb
    exact ⟨x, y, rest, m, n, rfl, hx, hy⟩

theorem not_hasByteInFront_of_length {s : Text} (h : s.length < 2) : ¬ HasByteInFront s := by
  rintro ⟨x, y, rest, m, n, rfl, -⟩
  simp only [List.length_cons] at h
  omega

theorem ne_percent {n : Nat} (h : IsHexDigit n c) : c ≠ '%' := by
  rintro rfl
  exact nomatch hexValue?_eq_some_iff.2 h

end Digits

theorem malformed?_of_isBad {s : Text} (h : IsBad s) : malformed? s = some (s.take 3) := by
  obtain ⟨rest, rfl, hrest⟩ := h
  match rest with
  | [] => rfl
  | [x] => rfl
  | x :: y :: rest =>
    rw [malformed?, if_neg (mt hasByteInFront_cons_cons.2 hrest)]
    rfl

theorem malformed?_of_not_isBad {c : Char} {rest : Text} (h : ¬ IsBad (c :: rest)) :
    malformed? (c :: rest) = malformed? rest := by
  by_cases hc : c = '%'
  · subst hc
    have hfront : HasByteInFront rest := by
      by_contra hnone
      exact h ⟨rest, rfl, hnone⟩
    obtain ⟨x, y, more, m, n, rfl, -⟩ := id hfront
    rw [malformed?, if_pos (hasByteInFront_cons_cons.1 hfront)]
  · exact Query.malformed?_cons_of_ne hc rest

theorem hasBadEscape_cons {c : Char} {rest : Text} :
    HasBadEscape (c :: rest) ↔ IsBad (c :: rest) ∨ HasBadEscape rest := by
  simp only [HasBadEscape, List.suffix_cons_iff, or_and_right, exists_or, exists_eq_left]

theorem not_isBad_nil : ¬ IsBad [] := by
  rintro ⟨rest, h, -⟩
  exact nomatch h

theorem not_hasBadEscape_nil : ¬ HasBadEscape [] := by
  rintro ⟨bad, hsuffix, hbad⟩
  rw [List.suffix_nil.1 hsuffix] at hbad
  exact not_isBad_nil hbad

theorem isFirstBadEscape_of_isBad {s shown : Text} (h : IsBad s) :
    IsFirstBadEscape s shown ↔ shown = s.take 3 := by
  constructor
  · rintro ⟨bad, hsuffix, -, rfl, hfirst⟩
    have hback := hfirst s List.suffix_rfl h
    rw [hsuffix.eq_of_length (Nat.le_antisymm hsuffix.length_le hback.length_le)]
  · intro hshown
    exact ⟨s, List.suffix_rfl, h, hshown, fun _ hother _ => hother⟩

theorem isFirstBadEscape_of_not_isBad {c : Char} {rest shown : Text} (h : ¬ IsBad (c :: rest)) :
    IsFirstBadEscape (c :: rest) shown ↔ IsFirstBadEscape rest shown := by
  have hsuffix {bad : Text} (hbad : IsBad bad) : bad <:+ c :: rest ↔ bad <:+ rest := by
    rw [List.suffix_cons_iff]
    refine or_iff_right ?_
    rintro rfl
    exact h hbad
  constructor
  · rintro ⟨bad, hs, hbad, hshown, hfirst⟩
    exact ⟨bad, (hsuffix hbad).1 hs, hbad, hshown, fun other ho hb => hfirst other ((hsuffix hb).2 ho) hb⟩
  · rintro ⟨bad, hs, hbad, hshown, hfirst⟩
    exact ⟨bad, (hsuffix hbad).2 hs, hbad, hshown, fun other ho hb => hfirst other ((hsuffix hb).1 ho) hb⟩

theorem malformed?_eq_some_iff {s shown : Text} :
    malformed? s = some shown ↔ IsFirstBadEscape s shown := by
  induction s with
  | nil =>
    refine iff_of_false nofun ?_
    rintro ⟨bad, hsuffix, hbad, -⟩
    exact not_hasBadEscape_nil ⟨bad, hsuffix, hbad⟩
  | cons c rest ih =>
    by_cases h : IsBad (c :: rest)
    · rw [malformed?_of_isBad h, isFirstBadEscape_of_isBad h, Option.some.injEq, eq_comm]
    · rw [malformed?_of_not_isBad h, isFirstBadEscape_of_not_isBad h, ih]

theorem malformed?_eq_none_iff {s : Text} : malformed? s = none ↔ ¬ HasBadEscape s := by
  induction s with
  | nil => exact iff_of_true rfl not_hasBadEscape_nil
  | cons c rest ih =>
    rw [hasBadEscape_cons]
    by_cases h : IsBad (c :: rest)
    · rw [malformed?_of_isBad h]
      exact iff_of_false nofun fun hnone => hnone (.inl h)
    · rw [malformed?_of_not_isBad h, ih, or_iff_right h]

section Parted
variable {sep : Char} (hsep : hexValue? sep = none) (t : Text)
include hsep

theorem hasByteInFront_append_cons (s : Text) :
    HasByteInFront (s ++ sep :: t) ↔ HasByteInFront s := by
  have hbyte (x : Char) : byte? x sep = none := by
    rw [byte?, hsep]
    cases hexValue? x <;> rfl
  rcases s with _ | ⟨x, _ | ⟨y, rest⟩⟩
  · refine iff_of_false ?_ (not_hasByteInFront_of_length (by decide))
    rintro ⟨x, y, rest, m, n, heq, hx, -⟩
    rw [← (List.cons.inj heq).1, ← hexValue?_eq_some_iff, hsep] at hx
    cases hx
  · refine iff_of_false ?_ (not_hasByteInFront_of_length (Nat.lt_succ_self 1))
    rw [List.singleton_append, hasByteInFront_cons_cons, hbyte x]
    exact Bool.noConfusion
  · rw [List.cons_append, List.cons_append, hasByteInFront_cons_cons, hasByteInFront_cons_cons]

theorem hasBadEscape_append_cons (hne : sep ≠ '%') (s : Text) :
    HasBadEscape (s ++ sep :: t) ↔ HasBadEscape s ∨ HasBadEscape t := by
  induction s with
  | nil =>
    have hgood : ¬ IsBad (sep :: t) := fun ⟨rest, h, _⟩ => hne (List.cons.inj h).1
    rw [List.nil_append, hasBadEscape_cons, or_iff_right hgood, or_iff_right not_hasBadEscape_nil]
  | cons c rest ih =>
    have hfront : IsBad (c :: (rest ++ sep :: t)) ↔ IsBad (c :: rest) := by
      simp only [IsBad, List.cons.injEq, exists_eq_left', and_assoc, exists_and_left,
        hasByteInFront_append_cons hsep t]
    rw [List.cons_append, hasBadEscape_cons, hasBadEscape_cons, hfront, ih, or_assoc]

end Parted

end FindQuery.Escape
