import FindQuery.Proofs.Coerce.Word
import FindQuery.Proofs.DateText.IsoReading

/-! ISO texts as values. -/

namespace FindQuery.Coerce
open DateText (IsMark isIsoChar)

section Single
variable {m : Moment} {mark : Char}

theorem colon_mem_isoText : ':' ∈ m.isoText mark := by
  simp [Moment.isoText, Moment.clockText]

theorem isOther_isoText : IsOther (m.isoText mark) := by
  have hcolon : ':' ∈ m.isoText mark := colon_mem_isoText
  refine ⟨?_, fun n hn => ?_, fun b hb => ?_⟩
  · rintro ⟨l, hl⟩
    exact absurd (hl.isNumeric ':' hcolon) (by decide)
  · exact absurd (hn.areGroupedNumeric ':' hcolon) (by decide)
  · have hall : ∀ b, ∀ word ∈ truthWords b, ':' ∉ word := by decide
    exact hall b _ hb hcolon

theorem comma_not_mem_isoText (h : m.IsIso) (hmark : IsMark mark) : ',' ∉ m.isoText mark :=
  fun hmem => nomatch DateText.isIsoChar_of_mem_isoText h hmark _ hmem

end Single

section Value
variable {operator : Operator} {entries : List (Char × Moment)}

theorem uniform_isoTexts [Host] (hne : entries ≠ []) (h : ∀ e ∈ entries, IsMark e.1 ∧ e.2.IsIso) :
    uniform (entries.map fun e => e.2.isoText e.1) =
      .ok (entries.map fun e => .moment e.2.unnamed) := by
  obtain ⟨e, he⟩ := List.exists_mem_of_ne_nil entries hne
  have hpiece : e.2.isoText e.1 ∈ entries.map fun e => e.2.isoText e.1 := List.mem_map_of_mem he
  have hother : IsOther (e.2.isoText e.1) := isOther_isoText
  have hfloat : float? (e.2.isoText e.1) = none := not_isFloat_iff.1 hother.not_float
  have hint : int? (e.2.isoText e.1) = none := not_isInteger_iff.1 hother.not_integer
  have hmoments : allMoments (entries.map fun e => e.2.isoText e.1) =
      .ok (some (entries.map fun e => .moment e.2.unnamed)) := by
    refine allMoments_eq_some.2 ⟨entries.map fun e => e.2.unnamed, ?_, List.map_map⟩
    rw [List.forall₂_map_left_iff, List.forall₂_map_right_iff, List.forall₂_same]
    intro e he
    obtain ⟨hmark, hiso⟩ := h e he
    exact DateText.complete_isoText hiso hmark
  rw [uniform, allAs?_eq_none_of_mem hpiece hfloat, allAs?_eq_none_of_mem hpiece hint, hmoments]
  rfl

/-- An ISO text is read back as the moment that it tells, and ISO texts with commas between them as the list of
their moments. -/
theorem value_isoText [Host] (hregex : operator ≠ .regex) :
    (¬ IsListing operator → ∀ (m : Moment) (mark : Char), m.IsIso → IsMark mark →
      value operator (m.isoText mark) = .ok (.moment m.unnamed)) ∧
    (IsListing operator → ∀ entries : List (Char × Moment), entries ≠ [] →
      (∀ e ∈ entries, IsMark e.1 ∧ e.2.IsIso) →
        value operator (Text.joinWith [','] (entries.map fun e => e.2.isoText e.1)) =
          .ok (.list (entries.map fun e => .moment e.2.unnamed))) := by
  refine ⟨fun hlisting m mark hiso hmark => ?_, fun hlisting entries hne h => ?_⟩
  · obtain ⟨c, hc, hdigit⟩ := DateText.exists_digit_isoText m mark
    rw [value_eq_scalar hlisting hregex (List.ne_nil_of_mem hc) (isNull_eq_false_of_isDigit hc hdigit)]
    exact scalar_of_isReadAs (.moment isOther_isoText (DateText.complete_isoText hiso hmark))
  · have hsplit : Text.splitOn ',' (Text.joinWith [','] (entries.map fun e => e.2.isoText e.1)) =
        entries.map fun e => e.2.isoText e.1 := by
      refine Text.splitOn_joinWith (mt List.map_eq_nil_iff.1 hne) (List.forall_mem_map.2 ?_)
      intro e he
      exact comma_not_mem_isoText (h e he).2 (h e he).1
    obtain ⟨e, he⟩ := List.exists_mem_of_ne_nil entries hne
    obtain ⟨c, hc, hdigit⟩ := DateText.exists_digit_isoText e.2 e.1
    have hmem := Text.mem_of_mem_splitOn (hsplit ▸ List.mem_map_of_mem he) hc
    rw [value_eq_uniform hlisting (List.ne_nil_of_mem hmem) (isNull_eq_false_of_isDigit hmem hdigit),
      hsplit, uniform_isoTexts hne h]
    rfl

def earlyMoment : Moment := ⟨⟨33, 2, 28⟩, ⟨23, 59, 7, 40⟩, some ⟨-86340, none⟩⟩

def earlyText : Text := "0033-02-28T23:59:07.000040-23:59".toList

theorem value_isoText_earlyMoment : Operator.lte ≠ .regex ∧ Operator.notIn ≠ .regex ∧
    ¬ IsListing .lte ∧ IsListing .notIn ∧ IsMark 'T' ∧ IsMark ' ' ∧ earlyMoment.IsIso ∧
    value .lte earlyText = .ok (.moment earlyMoment) ∧
    value .notIn (earlyText ++ ",0033-02-28 23:59:07.000040-23:59".toList) =
      .ok (.list [.moment earlyMoment, .moment earlyMoment]) := by
  have hsingle : ¬ IsListing .lte := by decide
  have hlisting : IsListing .notIn := by decide
  have hmark : IsMark 'T' := .inl rfl
  have hmark' : IsMark ' ' := .inr rfl
  have hiso : earlyMoment.IsIso := ⟨by decide, by decide, by decide, by decide⟩
  have hentries : ∀ e ∈ [('T', earlyMoment), (' ', earlyMoment)], IsMark e.1 ∧ e.2.IsIso := by
    simp only [List.forall_mem_cons]
    exact ⟨⟨hmark, hiso⟩, ⟨hmark', hiso⟩, nofun⟩
  have hread := (value_isoText (show Operator.lte ≠ .regex by decide)).1 hsingle earlyMoment 'T' hiso hmark
  have hreads := (value_isoText (show Operator.notIn ≠ .regex by decide)).2 hlisting
    [('T', earlyMoment), (' ', earlyMoment)] (by decide) hentries
  exact ⟨by decide, by decide, hsingle, hlisting, hmark, hmark', hiso, hread, hreads⟩

end Value

end FindQuery.Coerce
