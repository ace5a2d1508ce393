import Mathlib.Data.List.Basic
import Mathlib.Data.List.TakeDrop
import Mathlib.Data.List.TakeWhile
import FindQuery.Binary64.Literal
import FindQuery.Proofs.Numeral.Literal

/-! The language of floating-point literals. -/

namespace FindQuery.Binary64
open Numeral (IsSign HasNoSign AreDigits spelled signed)

inductive IsExponent : Text → Int → Prop
  | absent : IsExponent [] 0
  | marked {mark : Char} {negative : Bool} {sign digits : Text} : mark = 'e' ∨ mark = 'E' →
      IsSign negative sign → digits ≠ [] → AreDigits digits →
      IsExponent (mark :: (sign ++ digits)) (signed negative (spelled digits))

/-- A decimal numeral without its sign, as a coefficient and a power of ten. There are digits on one side
of the point at least. -/
inductive IsDecimal : Text → Nat → Int → Prop
  | whole {digits tail : Text} {e : Int} : digits ≠ [] → AreDigits digits → IsExponent tail e →
      IsDecimal (digits ++ tail) (spelled digits) e
  | pointed {digits fraction tail : Text} {e : Int} : digits ≠ [] ∨ fraction ≠ [] →
      AreDigits digits → AreDigits fraction → IsExponent tail e →
      IsDecimal (digits ++ '.' :: (fraction ++ tail)) (spelled (digits ++ fraction))
        (e - fraction.length)

def infinityWords : List Text := ["inf", "infinity"].map String.toList

inductive IsLiteral : Text → Literal → Prop
  | decimal {negative : Bool} {sign body : Text} {coefficient : Nat} {exponent : Int} :
      IsSign negative sign → IsDecimal body coefficient exponent →
      IsLiteral (sign ++ body) (.decimal negative coefficient exponent)
  | infinity {negative : Bool} {sign word : Text} : IsSign negative sign →
      Text.lowerAscii word ∈ infinityWords → IsLiteral (sign ++ word) (.infinity negative)
  | nan {negative : Bool} {sign word : Text} : IsSign negative sign →
      Text.lowerAscii word = "nan".toList → IsLiteral (sign ++ word) .nan

section Digits
variable {c : Char} {digits tail : Text}

theorem isAsciiDigit_eq (c : Char) : isAsciiDigit c = c.isDigit := by
  rw [Bool.eq_iff_iff, isAsciiDigit, Option.isSome_iff_exists]
  simp only [Numeral.digitValue?_eq_some_iff (show 10 ≤ 16 by decide), Numeral.isDigit_ten_iff,
    exists_and_left, exists_eq, and_true]

theorem ofDigits_digitsOf (h : AreDigits digits) :
    Numeral.ofDigits 10 (digitsOf digits) = spelled digits := by
  have hvalues : digitsOf digits = digits.map (·.toNat - 48) := by
    rw [digitsOf, List.filterMap_eq_map_iff_forall_eq_some]
    intro c hc
    exact (Numeral.digitValue?_eq_some_iff (by decide)).2 (Numeral.isDigit_ten_iff.2 ⟨h c hc, rfl⟩)
  rw [hvalues, Numeral.ofDigits_eq, spelled]

theorem all_isAsciiDigit_iff : digits.all isAsciiDigit = true ↔ AreDigits digits := by
  simp only [List.all_eq_true, isAsciiDigit_eq, AreDigits]

theorem span_eq_iff {s : Text} : s.span isAsciiDigit = (digits, tail) ↔
    s = digits ++ tail ∧ AreDigits digits ∧ ∀ c ∈ tail.head?, c.isDigit = false := by
  rw [List.span_eq_takeWhile_dropWhile, funext isAsciiDigit_eq]
  constructor
  · intro h
    obtain ⟨rfl, rfl⟩ := Prod.mk.inj h
    refine ⟨List.takeWhile_append_dropWhile.symm, fun c hc => List.mem_takeWhile_imp hc, ?_⟩
    intro c hc
    have hhead := List.head?_dropWhile_not Char.isDigit s
    rw [Option.mem_def.1 hc] at hhead
    simpa using hhead
  · rintro ⟨rfl, hdigits, htail⟩
    rw [List.takeWhile_append_of_pos hdigits, List.dropWhile_append_of_pos hdigits]
    cases tail with
    | nil => rw [List.takeWhile_nil, List.dropWhile_nil, List.append_nil]
    | cons c rest =>
      have hc : ¬ c.isDigit = true := by
        rw [htail c rfl]
        exact Bool.false_ne_true
      rw [List.takeWhile_cons_of_neg hc, List.dropWhile_cons_of_neg hc, List.append_nil]

theorem hasNoSign_of_areDigits (h : AreDigits digits) : HasNoSign digits := by
  intro c hc
  have hdigit := h c (List.mem_of_mem_head? hc)
  exact ⟨Numeral.ne_of_isDigit hdigit rfl, Numeral.ne_of_isDigit hdigit rfl⟩

end Digits

section Decimal
variable {s body tail : Text} {e : Int} {negative : Bool} {l : Literal}

theorem exponentPart?_marked {mark : Char} {digits rest : Text} (hmark : mark = 'e' ∨ mark = 'E')
    (h : Numeral.takeSign rest = (negative, digits)) : exponentPart? (mark :: rest) =
      if digits ≠ [] ∧ digits.all isAsciiDigit then
        some (signed negative (Numeral.ofDigits 10 (digitsOf digits)))
      else none := by
  rw [exponentPart?, if_pos hmark, h]

theorem exponentPart?_eq_some_iff : exponentPart? s = some e ↔ IsExponent s e := by
  constructor
  · intro h
    cases s with
    | nil =>
      obtain rfl := Option.some.inj h
      exact .absent
    | cons mark rest =>
      by_cases hmark : mark = 'e' ∨ mark = 'E'
      · obtain ⟨⟨negative, digits⟩, hsplit⟩ : ∃ p, Numeral.takeSign rest = p := ⟨_, rfl⟩
        obtain ⟨sign, hsign, rfl⟩ := Numeral.exists_sign_of_takeSign hsplit
        rw [exponentPart?_marked hmark hsplit] at h
        split at h
        · next hdigits =>
          have hall := all_isAsciiDigit_iff.1 hdigits.2
          obtain rfl := Option.some.inj h
          rw [ofDigits_digitsOf hall]
          exact .marked hmark hsign hdigits.1 hall
        · exact nomatch h
      · rw [exponentPart?, if_neg hmark] at h
        exact nomatch h
  · rintro (_ | ⟨hmark, hsign, hne, hdigits⟩)
    · rfl
    · have hsplit := Numeral.takeSign_append hsign (hasNoSign_of_areDigits hdigits)
      rw [exponentPart?_marked hmark hsplit, if_pos ⟨hne, all_isAsciiDigit_iff.2 hdigits⟩,
        ofDigits_digitsOf hdigits]

theorem fractionPart_of_ne (h : ∀ rest, s ≠ '.' :: rest) : fractionPart s = ([], s) := by
  unfold fractionPart
  split
  · next rest => exact absurd rfl (h rest)
  · rfl

theorem decimalBody?_eq {digits rest fraction tail : Text} (hwhole : s.span isAsciiDigit = (digits, rest))
    (hfraction : fractionPart rest = (fraction, tail)) : decimalBody? negative s =
      if digits = [] ∧ fraction = [] then none
      else (exponentPart? tail).map fun e =>
        .decimal negative (Numeral.ofDigits 10 (digitsOf (digits ++ fraction))) (e - fraction.length) := by
  rw [decimalBody?, hwhole]
  simp only [hfraction]

theorem IsExponent.head_tail (h : IsExponent s e) : ∀ c ∈ s.head?, c.isDigit = false ∧ c ≠ '.' := by
  cases h with
  | absent => exact nofun
  | marked hmark _ _ _ =>
    intro c hc
    obtain rfl := Option.some.inj hc
    rcases hmark with rfl | rfl
    · decide
    · decide

theorem exists_isDecimal_of_decimalBody? (h : decimalBody? negative s = some l) :
    ∃ coefficient e, IsDecimal s coefficient e ∧ l = .decimal negative coefficient e := by
  obtain ⟨⟨digits, rest⟩, hwhole⟩ : ∃ p, s.span isAsciiDigit = p := ⟨_, rfl⟩
  obtain ⟨⟨fraction, tail⟩, hfraction⟩ : ∃ p, fractionPart rest = p := ⟨_, rfl⟩
  rw [decimalBody?_eq hwhole hfraction] at h
  obtain ⟨rfl, hdigits, -⟩ := span_eq_iff.1 hwhole
  split at h
  · exact nomatch h
  · next hne =>
    obtain ⟨e, he, rfl⟩ := Option.map_eq_some_iff.1 h
    have htail := exponentPart?_eq_some_iff.1 he
    by_cases hpoint : ∃ more, rest = '.' :: more
    · obtain ⟨more, rfl⟩ := hpoint
      obtain ⟨rfl, hmore, -⟩ := span_eq_iff.1 hfraction
      rw [ofDigits_digitsOf (hdigits.append hmore)]
      refine ⟨_, _, .pointed ?_ hdigits hmore htail, rfl⟩
      rwa [Classical.not_and_iff_not_or_not] at hne
    · rw [fractionPart_of_ne (not_exists.1 hpoint)] at hfraction
      obtain ⟨rfl, rfl⟩ := Prod.mk.inj hfraction
      rw [List.append_nil, ofDigits_digitsOf hdigits, List.length_nil, Int.natCast_zero, Int.sub_zero]
      exact ⟨_, _, .whole (fun hnil => hne ⟨hnil, rfl⟩) hdigits htail, rfl⟩

theorem decimalBody?_of_isDecimal {coefficient : Nat} (h : IsDecimal s coefficient e) :
    decimalBody? negative s = some (.decimal negative coefficient e) := by
  cases h with
  | @whole digits tail e hne hdigits htail =>
    have hwhole := span_eq_iff.2 ⟨rfl, hdigits, fun c hc => (htail.head_tail c hc).1⟩
    have hfraction : fractionPart tail = ([], tail) := by
      apply fractionPart_of_ne
      rintro rest rfl
      exact (htail.head_tail '.' rfl).2 rfl
    rw [decimalBody?_eq hwhole hfraction, if_neg fun hnil => hne hnil.1,
      exponentPart?_eq_some_iff.2 htail, Option.map_some, List.append_nil, ofDigits_digitsOf hdigits,
      List.length_nil, Int.natCast_zero, Int.sub_zero]
  | @pointed digits fraction tail e hne hdigits hmore htail =>
    have hpoint : ∀ c ∈ ('.' :: (fraction ++ tail)).head?, c.isDigit = false := by
      intro c hc
      obtain rfl := Option.some.inj hc
      rfl
    have hwhole := span_eq_iff.2 ⟨rfl, hdigits, hpoint⟩
    have hfraction : fractionPart ('.' :: (fraction ++ tail)) = (fraction, tail) :=
      span_eq_iff.2 ⟨rfl, hmore, fun c hc => (htail.head_tail c hc).1⟩
    rw [decimalBody?_eq hwhole hfraction, if_neg, exponentPart?_eq_some_iff.2 htail, Option.map_some,
      ofDigits_digitsOf (hdigits.append hmore)]
    rwa [Classical.not_and_iff_not_or_not]

end Decimal

section Literal
variable {s body word : Text} {negative : Bool} {l : Literal}

theorem IsDecimal.exists_head {coefficient : Nat} {e : Int} (h : IsDecimal s coefficient e) :
    ∃ c rest, s = c :: rest ∧ (c.isDigit = true ∨ c = '.') := by
  cases h with
  | @whole digits _ _ hne hdigits _ =>
    cases digits with
    | nil => exact absurd rfl hne
    | cons c rest => exact ⟨c, _, rfl, .inl (hdigits c List.mem_cons_self)⟩
  | @pointed digits _ _ _ _ hdigits _ _ =>
    cases digits with
    | nil => exact ⟨'.', _, rfl, .inr rfl⟩
    | cons c rest => exact ⟨c, _, rfl, .inl (hdigits c List.mem_cons_self)⟩

theorem IsDecimal.hasNoSign {coefficient : Nat} {e : Int} (h : IsDecimal s coefficient e) :
    HasNoSign s := by
  obtain ⟨c, rest, rfl, hc⟩ := h.exists_head
  intro d hd
  obtain rfl := Option.some.inj hd
  rcases hc with hc | rfl
  · exact hasNoSign_of_areDigits (List.forall_mem_singleton.2 hc) c rfl
  · decide

def nonfiniteWords : List Text := infinityWords ++ ["nan".toList]

theorem mem_nonfiniteWords : word ∈ nonfiniteWords ↔ word ∈ infinityWords ∨ word = "nan".toList := by
  rw [nonfiniteWords, List.mem_append, List.mem_singleton]

theorem toLower_head_of_word (h : Text.lowerAscii word ∈ nonfiniteWords) :
    ∃ c rest, word = c :: rest ∧ (c.toLower = 'i' ∨ c.toLower = 'n') := by
  have hall : ∀ w ∈ nonfiniteWords, w.head? = some 'i' ∨ w.head? = some 'n' := by decide
  cases word with
  | nil => exact absurd (hall _ h) (by decide)
  | cons c rest =>
    refine ⟨c, rest, rfl, ?_⟩
    rcases hall _ h with hc | hc
    · exact .inl (Option.some.inj hc)
    · exact .inr (Option.some.inj hc)

theorem not_word_of_isDecimal {coefficient : Nat} {e : Int} (h : IsDecimal s coefficient e) :
    Text.lowerAscii s ∉ nonfiniteWords := by
  intro hword
  obtain ⟨c, rest, rfl, hc⟩ := h.exists_head
  obtain ⟨d, tail, hs, hd⟩ := toLower_head_of_word hword
  obtain ⟨rfl, rfl⟩ := List.cons.inj hs
  rcases hc with hc | rfl
  · rw [Numeral.toLower_of_isDigit hc] at hd
    rcases hd with rfl | rfl
    · exact nomatch hc
    · exact nomatch hc
  · exact absurd hd (by decide)

theorem hasNoSign_of_word (h : Text.lowerAscii word ∈ nonfiniteWords) : HasNoSign word := by
  obtain ⟨c, rest, rfl, hc⟩ := toLower_head_of_word h
  intro d hd
  obtain rfl := Option.some.inj hd
  constructor
  · rintro rfl
    exact absurd hc (by decide)
  · rintro rfl
    exact absurd hc (by decide)

theorem literalBody?_infinity (h : Text.lowerAscii word ∈ infinityWords) :
    literalBody? negative word = some (.infinity negative) := by
  simp only [infinityWords, List.map_cons, List.map_nil, List.mem_pair] at h
  rw [literalBody?, if_pos h]

theorem literalBody?_nan (h : Text.lowerAscii word = "nan".toList) :
    literalBody? negative word = some .nan := by
  simp only [literalBody?, h]
  rfl

theorem literalBody?_of_not_word (h : Text.lowerAscii s ∉ nonfiniteWords) :
    literalBody? negative s = decimalBody? negative s := by
  rw [mem_nonfiniteWords, not_or] at h
  obtain ⟨hinfinity, hnan⟩ := h
  simp only [infinityWords, List.map_cons, List.map_nil, List.mem_pair] at hinfinity
  simp only [literalBody?, if_neg hinfinity, if_neg hnan]

theorem isLiteral_of_literalBody? {sign : Text} (hsign : IsSign negative sign)
    (h : literalBody? negative body = some l) : IsLiteral (sign ++ body) l := by
  by_cases hinfinity : Text.lowerAscii body ∈ infinityWords
  · rw [literalBody?_infinity hinfinity] at h
    obtain rfl := Option.some.inj h
    exact .infinity hsign hinfinity
  · by_cases hnan : Text.lowerAscii body = "nan".toList
    · rw [literalBody?_nan hnan] at h
      obtain rfl := Option.some.inj h
      exact .nan hsign hnan
    · rw [literalBody?_of_not_word (mt mem_nonfiniteWords.1 (not_or.2 ⟨hinfinity, hnan⟩))] at h
      obtain ⟨coefficient, e, hdecimal, rfl⟩ := exists_isDecimal_of_decimalBody? h
      exact .decimal hsign hdecimal

theorem ofText?_eq_some_iff : Literal.ofText? s = some l ↔ IsLiteral s l := by
  constructor
  · intro h
    obtain ⟨⟨negative, body⟩, hsplit⟩ : ∃ p, Numeral.takeSign s = p := ⟨_, rfl⟩
    obtain ⟨sign, hsign, rfl⟩ := Numeral.exists_sign_of_takeSign hsplit
    rw [Literal.ofText?, hsplit] at h
    exact isLiteral_of_literalBody? hsign h
  · rintro (⟨hsign, hdecimal⟩ | ⟨hsign, hword⟩ | ⟨hsign, hword⟩)
    · rw [Literal.ofText?, Numeral.takeSign_append hsign hdecimal.hasNoSign]
      show literalBody? _ _ = _
      rw [literalBody?_of_not_word (not_word_of_isDecimal hdecimal), decimalBody?_of_isDecimal hdecimal]
    · have hnonfinite := mem_nonfiniteWords.2 (.inl hword)
      rw [Literal.ofText?, Numeral.takeSign_append hsign (hasNoSign_of_word hnonfinite)]
      exact literalBody?_infinity hword
    · have hnonfinite := mem_nonfiniteWords.2 (.inr hword)
      rw [Literal.ofText?, Numeral.takeSign_append hsign (hasNoSign_of_word hnonfinite)]
      exact literalBody?_nan hword

end Literal

section Characters
variable {s word : Text} {l : Literal}

theorem IsExponent.isNumeric {e : Int} (h : IsExponent s e) :
    ∀ c ∈ s, Numeral.isNumeric c = true := by
  cases h with
  | absent => exact nofun
  | marked hmark hsign _ hdigits =>
    rw [List.forall_mem_cons, List.forall_mem_append]
    refine ⟨?_, hsign.isNumeric, hdigits.isNumeric⟩
    rcases hmark with rfl | rfl
    · rfl
    · rfl

theorem IsDecimal.isNumeric {coefficient : Nat} {e : Int} (h : IsDecimal s coefficient e) :
    ∀ c ∈ s, Numeral.isNumeric c = true := by
  cases h with
  | whole _ hdigits htail =>
    rw [List.forall_mem_append]
    exact ⟨hdigits.isNumeric, htail.isNumeric⟩
  | pointed _ hdigits hfraction htail =>
    rw [List.forall_mem_append, List.forall_mem_cons, List.forall_mem_append]
    exact ⟨hdigits.isNumeric, rfl, hfraction.isNumeric, htail.isNumeric⟩

theorem isNumeric_of_word (h : Text.lowerAscii word ∈ nonfiniteWords) :
    ∀ c ∈ word, Numeral.isNumeric c = true := by
  have hall : ∀ w ∈ nonfiniteWords, w.all Char.isAlphanum = true := by decide
  intro c hc
  have hlower := List.all_eq_true.1 (hall _ h) c.toLower (List.mem_map_of_mem hc)
  exact Numeral.isNumeric_of_isAlphanum (Numeral.isAlphanum_of_toLower hlower)

theorem IsLiteral.isNumeric (h : IsLiteral s l) : ∀ c ∈ s, Numeral.isNumeric c = true := by
  cases h with
  | decimal hsign hdecimal =>
    rw [List.forall_mem_append]
    exact ⟨hsign.isNumeric, hdecimal.isNumeric⟩
  | infinity hsign hword =>
    rw [List.forall_mem_append]
    exact ⟨hsign.isNumeric, isNumeric_of_word (mem_nonfiniteWords.2 (.inl hword))⟩
  | nan hsign hword =>
    rw [List.forall_mem_append]
    exact ⟨hsign.isNumeric, isNumeric_of_word (mem_nonfiniteWords.2 (.inr hword))⟩

end Characters

end FindQuery.Binary64
