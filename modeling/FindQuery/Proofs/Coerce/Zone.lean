import FindQuery.Proofs.Coerce.Language
import FindQuery.Proofs.DateText.Offset

/-! The zones of the moments that values are read as. -/

namespace FindQuery

inductive Value.HoldsMoment : Value → Moment → Prop
  | alone (m : Moment) : HoldsMoment (.moment m) m
  | item {items : List Value} {m : Moment} : .moment m ∈ items → HoldsMoment (.list items) m

namespace Coerce
open DateText (findings tokens TellsOffset isKnownZone)
open Numeral (signed)

def piecesFor (operator : Operator) (raw : Text) : List Text :=
  if IsListing operator then Text.splitOn ',' raw else [raw]

section Moments
variable {operator : Operator} {raw : Text} {v : Value} {m : Moment}

theorem moment_of_scalar [Host] (h : scalar raw = .ok (.moment m)) : moment raw = .ok (some m) := by
  cases scalar_eq_iff.1 h with
  | moment _ hm => exact hm

theorem exists_piece_of_uniform [Host] {pieces : List Text} {items : List Value}
    (h : uniform pieces = .ok items) (hm : .moment m ∈ items) :
    ∃ piece ∈ pieces, moment piece = .ok (some m) := by
  rcases uniform_eq_ok h with ⟨xs, -, rfl⟩ | ⟨ns, -, rfl⟩ | ⟨ms, hms, rfl⟩ | rfl
  · obtain ⟨x, -, hx⟩ := List.mem_map.1 hm
    exact nomatch hx
  · obtain ⟨n, -, hn⟩ := List.mem_map.1 hm
    exact nomatch hn
  · obtain ⟨m', hm', hsame⟩ := List.mem_map.1 hm
    obtain rfl := Value.moment.inj hsame
    exact exists_of_mem_right hms hm'
  · obtain ⟨s, -, hs⟩ := List.mem_map.1 hm
    exact nomatch hs

theorem exists_piece_of_holdsMoment [Host] (h : value operator raw = .ok v) (hm : v.HoldsMoment m) :
    ∃ piece ∈ piecesFor operator raw, moment piece = .ok (some m) := by
  rcases value_eq_ok h with ⟨-, rfl⟩ | ⟨-, rfl⟩ | ⟨hlisting, items, hitems, rfl⟩ | ⟨hlisting, hscalar⟩
  · exact nomatch hm
  · exact nomatch hm
  · rw [piecesFor, if_pos hlisting]
    cases hm with
    | item hmem => exact exists_piece_of_uniform hitems hmem
  · rw [piecesFor, if_neg hlisting]
    refine ⟨raw, List.mem_singleton_self raw, ?_⟩
    rcases isScalar_of_scalar hscalar with _ | b | n | x | m' | s
    case moment =>
      cases hm with
      | alone => exact moment_of_scalar hscalar
    all_goals exact nomatch hm

/-- A moment of a value is in no zone of a clock just when its text tells hours and minutes behind a sign that make
up a day or more, takes them for the offset, and does not name a known zone besides. -/
theorem not_hasValidZone_of_value_iff [Host] (h : value operator raw = .ok v) (hm : v.HoldsMoment m) :
    ∃ piece ∈ piecesFor operator raw, moment piece = .ok (some m) ∧ ∃ f, findings piece = .ok f ∧
      (¬ m.HasValidZone ↔ f.zoneName.any isKnownZone = false ∧
        ∃ west hours minutes, TellsOffset (tokens piece) hours minutes ∧ 1440 ≤ hours * 60 + minutes ∧
          f.zoneOffset = some (signed west (hours * 3600 + minutes * 60))) := by
  obtain ⟨piece, hpiece, hmoment⟩ := exists_piece_of_holdsMoment h hm
  exact ⟨piece, hpiece, hmoment, DateText.not_hasValidZone_iff hmoment⟩

def farMoment : Moment := ⟨⟨2024, 5, 6⟩, ⟨10, 0, 0, 0⟩, some ⟨356400, none⟩⟩

def farText : Text := "2024-05-06T10:00:00+99:00".toList

def farListing : Text := "2024-05-06 10:00 +9900 (GMT),".toList ++ farText

theorem not_hasValidZone_farListing :
    ∃ v, value .isIn farListing = .ok v ∧ v.HoldsMoment farMoment ∧ ∃ piece ∈ piecesFor .isIn farListing,
      moment piece = .ok (some farMoment) ∧ ∃ f, findings piece = .ok f ∧
        f.zoneName.any isKnownZone = false ∧
          ∃ west hours minutes, TellsOffset (tokens piece) hours minutes ∧ 1440 ≤ hours * 60 + minutes ∧
            f.zoneOffset = some (signed west (hours * 3600 + minutes * 60)) := by
  have hvalue : value .isIn farListing = .ok (.list
      [.moment { farMoment with zone := some .universal }, .moment farMoment]) := by decide +kernel
  have hholds := Value.HoldsMoment.item (List.mem_cons_of_mem
    (.moment { farMoment with zone := some .universal }) (List.mem_singleton_self (Value.moment farMoment)))
  have hfar : ¬ farMoment.HasValidZone := by decide
  obtain ⟨piece, hpiece, hmoment, f, hf, hiff⟩ := not_hasValidZone_of_value_iff hvalue hholds
  exact ⟨_, hvalue, hholds, piece, hpiece, hmoment, f, hf, hiff.1 hfar⟩

theorem value_farText : value .eq farText = .ok (.moment farMoment) ∧ ¬ farMoment.HasValidZone ∧
    farMoment.same { farMoment with zone := some .universal } = .error ⟨⟩ :=
  ⟨by decide +kernel, by decide, by decide⟩

end Moments

end Coerce
end FindQuery
