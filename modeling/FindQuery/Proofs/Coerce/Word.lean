import FindQuery.Proofs.Coerce.Language
import FindQuery.Proofs.NotANumber

/-! Texts without digits. -/

namespace FindQuery

/-- No ASCII digit stands in the text. -/
def Text.HasNoDigit (s : Text) : Prop := ∀ c ∈ s, c.isDigit = false

theorem Text.any_isDigit_iff {s : Text} : s.any Char.isDigit = false ↔ HasNoDigit s := by
  simp only [List.any_eq_false, Bool.not_eq_true, HasNoDigit]

instance (s : Text) : Decidable (Text.HasNoDigit s) := decidable_of_iff _ Text.any_isDigit_iff

theorem Text.hasNoDigit_of_mem_splitOn {sep : Char} {s piece : Text} (h : HasNoDigit s)
    (hpiece : piece ∈ splitOn sep s) : HasNoDigit piece := by
  intro c hc
  exact h c (mem_of_mem_splitOn hpiece hc)

namespace Binary64
open Numeral (AreDigits)

theorem exists_digit_of_areDigits {digits : Text} (hne : digits ≠ []) (h : AreDigits digits) :
    ∃ c ∈ digits, c.isDigit = true := by
  obtain ⟨c, hc⟩ := List.exists_mem_of_ne_nil digits hne
  exact ⟨c, hc, h c hc⟩

theorem IsDecimal.exists_digit {s : Text} {coefficient : Nat} {e : Int}
    (h : IsDecimal s coefficient e) : ∃ c ∈ s, c.isDigit = true := by
  cases h with
  | whole hne hdigits _ =>
    obtain ⟨c, hc, hdigit⟩ := exists_digit_of_areDigits hne hdigits
    exact ⟨c, List.mem_append_left _ hc, hdigit⟩
  | pointed hne hdigits hfraction _ =>
    rcases hne with hne | hne
    · obtain ⟨c, hc, hdigit⟩ := exists_digit_of_areDigits hne hdigits
      exact ⟨c, List.mem_append_left _ hc, hdigit⟩
    · obtain ⟨c, hc, hdigit⟩ := exists_digit_of_areDigits hne hfraction
      exact ⟨c, List.mem_append_right _ (List.mem_cons_of_mem _ (List.mem_append_left _ hc)), hdigit⟩

theorem not_isFinite_infinity (negative : Bool) : ¬ (infinity negative).IsFinite := Nat.lt_irrefl 2047

theorem not_isFinite_nan : ¬ nan.IsFinite := Nat.lt_irrefl 2047

end Binary64

namespace Coerce
open Numeral (IsSign IsInteger)
open Binary64 (IsLiteral nonfiniteWords)

/-- A word for a number that is not finite, with a sign or without. -/
def IsNonfinite (s : Text) : Prop :=
  ∃ negative sign word, s = sign ++ word ∧ IsSign negative sign ∧
    Text.lowerAscii word ∈ nonfiniteWords

section Single
variable {s : Text}

theorem float?_of_isNonfinite (h : IsNonfinite s) : ∃ x, float? s = some x ∧ ¬ x.IsFinite := by
  obtain ⟨negative, sign, word, rfl, hsign, hword⟩ := h
  rcases Binary64.mem_nonfiniteWords.1 hword with hinfinity | hnan
  · exact ⟨_, float?_eq_some_iff.2 ⟨_, .infinity hsign hinfinity, rfl⟩,
      Binary64.not_isFinite_infinity negative⟩
  · exact ⟨_, float?_eq_some_iff.2 ⟨_, .nan hsign hnan, rfl⟩, Binary64.not_isFinite_nan⟩

theorem isFloat_iff_isNonfinite (h : Text.HasNoDigit s) : IsFloat s ↔ IsNonfinite s := by
  constructor
  · rintro ⟨l, hl⟩
    cases hl with
    | decimal hsign hdecimal =>
      obtain ⟨c, hc, hdigit⟩ := hdecimal.exists_digit
      exact absurd hdigit (by rw [h c (List.mem_append_right _ hc)]; exact Bool.false_ne_true)
    | infinity hsign hword =>
      exact ⟨_, _, _, rfl, hsign, Binary64.mem_nonfiniteWords.2 (.inl hword)⟩
    | nan hsign hword =>
      exact ⟨_, _, _, rfl, hsign, Binary64.mem_nonfiniteWords.2 (.inr hword)⟩
  · intro hword
    obtain ⟨x, hx, -⟩ := float?_of_isNonfinite hword
    exact isFloat_iff.2 (Option.isSome_iff_exists.2 ⟨x, hx⟩)

theorem not_isInteger_of_hasNoDigit (h : Text.HasNoDigit s) (n : Int) : ¬ IsInteger s n := by
  rintro ⟨negative, sign, body, m, rfl, -, hbody, -⟩
  obtain ⟨c, rest, d, rfl, hd⟩ := hbody.exists_digit
  have hnone := h c (List.mem_append_right _ List.mem_cons_self)
  rw [(Numeral.isDigit_ten_iff.1 hd).1] at hnone
  exact nomatch hnone

theorem moment_of_hasNoDigit [Host] (h : Text.HasNoDigit s) : moment s = .ok none := by
  have hnone : DateText.hasAsciiDigit s = false := Text.any_isDigit_iff.2 h
  rw [moment, DateText.complete, hnone, if_neg Bool.false_ne_true]

theorem isOther_of_hasNoDigit (h : Text.HasNoDigit s) (hword : ¬ IsNonfinite s)
    (htruth : ∀ b, s ∉ truthWords b) : IsOther s :=
  ⟨mt (isFloat_iff_isNonfinite h).1 hword, not_isInteger_of_hasNoDigit h, htruth⟩

end Single

section Lists
variable {pieces : List Text}

theorem allMoments_of_hasNoDigit [Host] (hne : pieces ≠ []) (h : ∀ piece ∈ pieces, Text.HasNoDigit piece) :
    allMoments pieces = .ok none := by
  cases pieces with
  | nil => exact absurd rfl hne
  | cons piece rest =>
    rw [allMoments, moment_of_hasNoDigit (h piece List.mem_cons_self)]
    rfl

theorem uniform_of_hasNoDigit [Host] (hne : pieces ≠ []) (h : ∀ piece ∈ pieces, Text.HasNoDigit piece)
    (hword : ∃ piece ∈ pieces, ¬ IsNonfinite piece) : uniform pieces = .ok (pieces.map .text) := by
  obtain ⟨piece, hmem, hnone⟩ := hword
  have hfloat : float? piece = none :=
    not_isFloat_iff.1 (mt (isFloat_iff_isNonfinite (h piece hmem)).1 hnone)
  have hint : int? piece = none := not_isInteger_iff.1 (not_isInteger_of_hasNoDigit (h piece hmem))
  rw [uniform, allAs?_eq_none_of_mem hmem hfloat, allAs?_eq_none_of_mem hmem hint,
    allMoments_of_hasNoDigit hne h]
  rfl

theorem uniform_of_isNonfinite [Host] (h : ∀ piece ∈ pieces, IsNonfinite piece) :
    ∃ xs : List Binary64, uniform pieces = .ok (xs.map .float) ∧ ∀ x ∈ xs, ¬ x.IsFinite := by
  have hreads : ∀ piece ∈ pieces, (float? piece).isSome = true := by
    intro piece hpiece
    obtain ⟨x, hx, -⟩ := float?_of_isNonfinite (h piece hpiece)
    exact Option.isSome_iff_exists.2 ⟨x, hx⟩
  obtain ⟨xs, hxs⟩ := exists_forall₂_iff.2 hreads
  refine ⟨xs, ?_, fun x hx => ?_⟩
  · rw [uniform, allAs?_eq_some.2 ⟨xs, hxs, rfl⟩]
    rfl
  · obtain ⟨piece, hpiece, hread⟩ := exists_of_mem_right hxs hx
    obtain ⟨y, hy, hnonfinite⟩ := float?_of_isNonfinite (h piece hpiece)
    obtain rfl := Option.some.inj (hread.symm.trans hy)
    exact hnonfinite

end Lists

section Value
variable {raw : Text}

/-- A text without digits stays a text, and the pieces of a list stay texts, unless they are words for
numbers that are not finite: the text itself, or every piece of the list. -/
theorem word_stays_text [Host] (hne : raw ≠ []) (hdigits : Text.HasNoDigit raw) (hnull : isNull raw = false)
    (htruth : ∀ b, raw ∉ truthWords b) :
    (∀ operator, ¬ IsListing operator →
      (operator = .regex ∨ ¬ IsNonfinite raw → value operator raw = .ok (.text raw)) ∧
      (operator ≠ .regex → IsNonfinite raw →
        ∃ x, value operator raw = .ok (.float x) ∧ ¬ x.IsFinite)) ∧
    ∀ operator, IsListing operator →
      ((∃ piece ∈ Text.splitOn ',' raw, ¬ IsNonfinite piece) →
        value operator raw = .ok (.list ((Text.splitOn ',' raw).map .text))) ∧
      ((∀ piece ∈ Text.splitOn ',' raw, IsNonfinite piece) →
        ∃ xs : List Binary64, value operator raw = .ok (.list (xs.map .float)) ∧
          ∀ x ∈ xs, ¬ x.IsFinite) := by
  refine ⟨fun operator hlisting => ⟨?_, ?_⟩, fun operator hlisting => ?_⟩
  · intro hplain
    by_cases hregex : operator = .regex
    · exact if_pos (.inl hregex)
    · have hother := isOther_of_hasNoDigit hdigits (hplain.resolve_left hregex) htruth
      rw [value_eq_scalar hlisting hregex hne hnull]
      exact scalar_of_isReadAs (.text hother (moment_of_hasNoDigit hdigits))
  · intro hregex hword
    obtain ⟨x, hx, hnonfinite⟩ := float?_of_isNonfinite hword
    rw [value_eq_scalar hlisting hregex hne hnull]
    exact ⟨x, scalar_of_isReadAs (.float hx), hnonfinite⟩
  · have hpieces : ∀ piece ∈ Text.splitOn ',' raw, Text.HasNoDigit piece :=
      fun piece hpiece => Text.hasNoDigit_of_mem_splitOn hdigits hpiece
    rw [value_eq_uniform hlisting hne hnull]
    constructor
    · intro hword
      rw [uniform_of_hasNoDigit (Text.splitOn_ne_nil ',' raw) hpieces hword]
      rfl
    · intro hall
      obtain ⟨xs, hxs, hnonfinite⟩ := uniform_of_isNonfinite hall
      rw [hxs]
      exact ⟨xs, rfl, hnonfinite⟩

def twoWordsText : Text := "may,-Infinity".toList

theorem not_isNonfinite_may : ¬ IsNonfinite "may".toList := by
  rw [← isFloat_iff_isNonfinite (by decide), not_isFloat_iff]
  decide +kernel

theorem word_stays_text_twoWords : twoWordsText ≠ [] ∧ Text.HasNoDigit twoWordsText ∧
    isNull twoWordsText = false ∧ (∀ b, twoWordsText ∉ truthWords b) ∧
      value .isIn twoWordsText = .ok (.list [.text "may".toList, .text "-Infinity".toList]) := by
  have hne : twoWordsText ≠ [] := by decide
  have hdigits : Text.HasNoDigit twoWordsText := by decide
  have hnull : isNull twoWordsText = false := by decide
  have htruth : ∀ b, twoWordsText ∉ truthWords b := by decide
  obtain ⟨-, hlists⟩ := word_stays_text hne hdigits hnull htruth
  have hlist := (hlists .isIn (by decide)).1 ⟨_, by decide, not_isNonfinite_may⟩
  exact ⟨hne, hdigits, hnull, htruth, hlist⟩

theorem value_infinityWord : Text.HasNoDigit "inf".toList ∧ isNull "inf".toList = false ∧
    (∀ b, "inf".toList ∉ truthWords b) ∧
      value .eq "inf".toList = .ok (.float (Binary64.infinity false)) ∧
      value .eq "inf".toList ≠ .ok (.text "inf".toList) := by
  have hvalue : value .eq "inf".toList = .ok (.float (Binary64.infinity false)) := by decide +kernel
  refine ⟨by decide, by decide, by decide, hvalue, fun htext => ?_⟩
  exact nomatch hvalue.symm.trans htext

end Value

end Coerce
end FindQuery
