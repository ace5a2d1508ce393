import FindQuery.Proofs.Coerce
import FindQuery.Proofs.Text
import FindQuery.Proofs.Value.Copies

/-! Which texts are read as what is no number. -/

namespace FindQuery

namespace Binary64

theorem not_isNaN_infinity (negative : Bool) : ¬ (infinity negative).IsNaN := fun h => h.2 rfl

theorem not_isNaN_zero (negative : Bool) : ¬ (zero negative).IsNaN := fun h => h.2 rfl

theorem not_isNaN_ofUnits (negative : Bool) (u : Nat) : ¬ (ofUnits negative u).IsNaN := by
  unfold ofUnits
  split
  · exact not_isNaN_infinity negative
  · next hlimit =>
    split
    · exact fun h => nomatch h.1
    · next hsmall =>
      have hne : u ≠ 0 := by
        rintro rfl
        exact hsmall fractionCount_pos
      unfold unitsLimit at hlimit
      generalize hk : 2098 = k at hlimit
      have hlog : u.log2 < k := (Nat.log2_lt hne).2 (Nat.lt_of_not_le hlimit)
      rintro ⟨hexponent, -⟩
      have hexponent : (u.log2 - 52 + 1) % 2048 = 2047 := hexponent
      omega

theorem not_isNaN_ofDecimal (negative : Bool) (coefficient : Nat) (exponent : Int) :
    ¬ (ofDecimal negative coefficient exponent).IsNaN := by
  unfold ofDecimal
  split
  · exact not_isNaN_zero negative
  · split
    · exact not_isNaN_infinity negative
    · split
      · exact not_isNaN_zero negative
      · exact not_isNaN_ofUnits negative _

theorem isNaN_nan : nan.IsNaN := by decide

namespace Literal

theorem isNaN_value_iff {l : Literal} : l.value.IsNaN ↔ l = .nan := by
  cases l with
  | decimal negative coefficient exponent =>
    exact iff_of_false (not_isNaN_ofDecimal negative coefficient exponent) nofun
  | infinity negative => exact iff_of_false (not_isNaN_infinity negative) nofun
  | nan => exact iff_of_true isNaN_nan rfl

theorem lowerAscii_of_literalBody? {negative : Bool} {s : Text}
    (h : literalBody? negative s = some .nan) : Text.lowerAscii s = "nan".toList := by
  simp only [literalBody?] at h
  split at h
  · exact nomatch h
  · split at h
    · next hnan => exact hnan
    · simp only [decimalBody?] at h
      split at h
      · exact nomatch h
      · obtain ⟨e, -, hl⟩ := Option.map_eq_some_iff.1 h
        exact nomatch hl

end Literal
end Binary64

namespace Text

def casings : Text → List Text
  | [] => [[]]
  | c :: rest => (casings rest).flatMap fun s => [c :: s, c.toUpper :: s]

theorem eq_toLower_or_eq_toUpper (c : Char) : c = c.toLower ∨ c = c.toLower.toUpper := by
  by_cases hc : c.toNat ≤ 90
  · have hall : ∀ k < 91, Char.ofNat k = (Char.ofNat k).toLower ∨
        Char.ofNat k = (Char.ofNat k).toLower.toUpper := by
      decide +kernel
    exact of_toNat_lt c (Nat.lt_succ_of_le hc) hall
  · exact .inl (toLower_of_not_capital (.inr (Nat.lt_of_not_le hc))).symm

theorem mem_casings_lowerAscii (s : Text) : s ∈ casings (lowerAscii s) := by
  induction s with
  | nil => exact List.mem_cons_self
  | cons c rest ih =>
    refine List.mem_flatMap.2 ⟨rest, ih, ?_⟩
    rw [List.mem_pair, List.cons.injEq, List.cons.injEq, and_iff_left rfl, and_iff_left rfl]
    exact eq_toLower_or_eq_toUpper c

end Text

namespace Coerce

def IsNaNWord (s : Text) : Prop := Text.lowerAscii s ∈ ["nan", "+nan", "-nan"].map String.toList

instance (s : Text) : Decidable (IsNaNWord s) := inferInstanceAs (Decidable (_ ∈ _))

theorem float?_of_isNaNWord {s : Text} (h : IsNaNWord s) : float? s = some Binary64.nan := by
  have hall : ∀ word ∈ ["nan", "+nan", "-nan"].map String.toList, ∀ t ∈ Text.casings word,
      float? t = some Binary64.nan := by
    decide +kernel
  exact hall _ h s (Text.mem_casings_lowerAscii s)

theorem isNaNWord_of_ofText? {s : Text} (h : Binary64.Literal.ofText? s = some .nan) :
    IsNaNWord s := by
  unfold Binary64.Literal.ofText? Numeral.takeSign at h
  unfold IsNaNWord
  split at h
  next negative body hsign =>
    have hbody := Binary64.Literal.lowerAscii_of_literalBody? h
    split at hsign <;> obtain ⟨rfl, rfl⟩ := Prod.mk.inj hsign
    · next rest =>
      have hword : Text.lowerAscii ('-' :: rest) = '-' :: Text.lowerAscii rest := rfl
      rw [hword, hbody]
      decide
    · next rest =>
      have hword : Text.lowerAscii ('+' :: rest) = '+' :: Text.lowerAscii rest := rfl
      rw [hword, hbody]
      decide
    · rw [hbody]
      decide

section Float
variable {s : Text} {x : Binary64}

theorem isNaN_iff_of_float? (h : float? s = some x) : x.IsNaN ↔ IsNaNWord s := by
  constructor
  · intro hnan
    unfold float? at h
    split at h
    · obtain ⟨l, hl, rfl⟩ := Option.map_eq_some_iff.1 h
      rw [Binary64.Literal.isNaN_value_iff.1 hnan] at hl
      exact isNaNWord_of_ofText? hl
    · exact nomatch h
  · intro hword
    obtain rfl := Option.some.inj (h.symm.trans (float?_of_isNaNWord hword))
    exact Binary64.isNaN_nan

theorem eq_nan_of_float? (h : float? s = some x) (hnan : x.IsNaN) : x = Binary64.nan := by
  have hword := (isNaN_iff_of_float? h).1 hnan
  exact Option.some.inj (h.symm.trans (float?_of_isNaNWord hword))

end Float

inductive ReadsNaN (operator : Operator) (raw : Text) : Prop
  | single : ¬ IsListing operator → IsNaNWord raw → ReadsNaN operator raw
  | listing : IsListing operator → (∀ piece ∈ Text.splitOn ',' raw, (float? piece).isSome = true) →
      (∃ piece ∈ Text.splitOn ',' raw, IsNaNWord piece) → ReadsNaN operator raw

section Value
variable {operator : Operator} {raw : Text} {v : Value}

theorem isFresh_of_uniform [Host] {pieces : List Text} {items : List Value}
    (h : uniform pieces = .ok items) : ∀ v ∈ items, v.IsFresh := by
  rcases uniform_eq_ok h with ⟨xs, hxs, rfl⟩ | ⟨ns, -, rfl⟩ | ⟨ms, -, rfl⟩ | rfl
  · rw [List.forall_mem_map]
    intro x hx
    obtain ⟨piece, -, hpiece⟩ := exists_of_mem_right hxs hx
    exact .float (eq_nan_of_float? hpiece)
  · exact List.forall_mem_map.2 fun n _ => .int n
  · exact List.forall_mem_map.2 fun m _ => .moment m
  · exact List.forall_mem_map.2 fun s _ => .text s

theorem isFresh_of_scalar [Host] (h : scalar raw = .ok v) : v.IsFresh := by
  rcases scalar_eq_ok h with hplain | ⟨m, rfl⟩ | rfl
  · rcases plain?_eq_some hplain with ⟨x, hx, rfl⟩ | ⟨n, -, rfl⟩ | ⟨b, -, rfl⟩
    · exact .float (eq_nan_of_float? hx)
    · exact .int n
    · exact .bool b
  · exact .moment m
  · exact .text raw

theorem isFresh_of_value [Host] (h : value operator raw = .ok v) : v.IsFresh := by
  rcases value_eq_ok h with ⟨-, rfl⟩ | ⟨-, rfl⟩ | ⟨-, items, hitems, rfl⟩ | ⟨-, hscalar⟩
  · exact .text raw
  · exact .null
  · exact .list (isFresh_of_uniform hitems)
  · exact isFresh_of_scalar hscalar

section Floats
variable {pieces : List Text}

theorem anyHoldsNaN_floats {xs : List Binary64}
    (h : List.Forall₂ (fun piece x => float? piece = some x) pieces xs) :
    Value.anyHoldsNaN (xs.map .float) = true ↔ ∃ piece ∈ pieces, IsNaNWord piece := by
  rw [Value.anyHoldsNaN_iff]
  constructor
  · rintro ⟨v, hv, hnan⟩
    obtain ⟨x, hx, rfl⟩ := List.mem_map.1 hv
    obtain ⟨piece, hpiece, hread⟩ := exists_of_mem_right h hx
    exact ⟨piece, hpiece, (isNaN_iff_of_float? hread).1 (of_decide_eq_true hnan)⟩
  · rintro ⟨piece, hpiece, hword⟩
    obtain ⟨x, hx, hread⟩ := exists_of_mem_left h hpiece
    exact ⟨.float x, List.mem_map_of_mem hx, decide_eq_true ((isNaN_iff_of_float? hread).2 hword)⟩

theorem anyHoldsNaN_uniform [Host] {items : List Value} (h : uniform pieces = .ok items) :
    Value.anyHoldsNaN items = true ↔
      (∀ piece ∈ pieces, (float? piece).isSome = true) ∧ ∃ piece ∈ pieces, IsNaNWord piece := by
  by_cases hall : ∀ piece ∈ pieces, (float? piece).isSome = true
  · obtain ⟨xs, hxs⟩ := exists_forall₂_iff.2 hall
    have hitems : uniform pieces = .ok (xs.map .float) := by
      rw [uniform, allAs?_eq_some.2 ⟨xs, hxs, rfl⟩]
      rfl
    obtain rfl := Except.ok.inj (hitems.symm.trans h)
    rw [anyHoldsNaN_floats hxs, and_iff_right hall]
  · refine iff_of_false ?_ fun h => hall h.1
    rw [Value.anyHoldsNaN_iff]
    rintro ⟨v, hv, hnan⟩
    rcases uniform_eq_ok h with ⟨xs, hxs, -⟩ | ⟨ns, -, rfl⟩ | ⟨ms, -, rfl⟩ | rfl
    · exact hall (exists_forall₂_iff.1 ⟨xs, hxs⟩)
    · obtain ⟨n, -, rfl⟩ := List.mem_map.1 hv
      exact nomatch hnan
    · obtain ⟨m, -, rfl⟩ := List.mem_map.1 hv
      exact nomatch hnan
    · obtain ⟨s, -, rfl⟩ := List.mem_map.1 hv
      exact nomatch hnan

end Floats

theorem holdsNaN_scalar [Host] (h : scalar raw = .ok v) : v.holdsNaN = true ↔ IsNaNWord raw := by
  constructor
  · intro hnan
    rcases scalar_eq_ok h with hplain | ⟨m, rfl⟩ | rfl
    · rcases plain?_eq_some hplain with ⟨x, hx, rfl⟩ | ⟨n, -, rfl⟩ | ⟨b, -, rfl⟩
      · exact (isNaN_iff_of_float? hx).1 (of_decide_eq_true hnan)
      · exact nomatch hnan
      · exact nomatch hnan
    · exact nomatch hnan
    · exact nomatch hnan
  · intro hword
    have hscalar : scalar raw = .ok (.float Binary64.nan) := by
      rw [scalar, plain?, float?_of_isNaNWord hword]
      rfl
    obtain rfl := Except.ok.inj (hscalar.symm.trans h)
    exact decide_eq_true Binary64.isNaN_nan

theorem not_isNaNWord_of_isNull (h : isNull raw = true) : ¬ IsNaNWord raw := by
  unfold IsNaNWord
  rcases Bool.or_eq_true_iff.1 h with hnull | hnull
  · rw [of_decide_eq_true hnull]
    decide
  · rw [of_decide_eq_true hnull]
    decide

theorem not_readsNaN_of_isNull (h : isNull raw = true) : ¬ ReadsNaN operator raw := by
  rintro (⟨-, hword⟩ | ⟨-, -, piece, hpiece, hword⟩)
  · exact not_isNaNWord_of_isNull h hword
  · have hseparator : ',' ∉ raw := by
      intro hmem
      have hlower : ',' ∈ Text.lowerAscii raw := List.mem_map_of_mem (f := Char.toLower) hmem
      rcases Bool.or_eq_true_iff.1 h with hnull | hnull
      · rw [of_decide_eq_true hnull] at hlower
        exact absurd hlower (by decide)
      · rw [of_decide_eq_true hnull] at hlower
        exact absurd hlower (by decide)
    rw [Text.splitOn_of_not_mem hseparator, List.mem_singleton] at hpiece
    exact not_isNaNWord_of_isNull h (hpiece ▸ hword)

theorem not_readsNaN_nil : ¬ ReadsNaN operator [] := by
  rintro (⟨-, hword⟩ | ⟨-, -, piece, hpiece, hword⟩)
  · exact absurd hword (by decide)
  · rw [Text.splitOn_nil, List.mem_singleton] at hpiece
    rw [hpiece] at hword
    exact absurd hword (by decide)

theorem holdsNaN_value [Host] (h : value operator raw = .ok v) (hregex : operator ≠ .regex) :
    v.holdsNaN = true ↔ ReadsNaN operator raw := by
  rcases value_eq_ok h with ⟨hraw, rfl⟩ | ⟨hnull, rfl⟩ | ⟨hlisting, items, hitems, rfl⟩ |
    ⟨hlisting, hscalar⟩
  · rw [hraw.resolve_left hregex]
    exact iff_of_false nofun not_readsNaN_nil
  · exact iff_of_false nofun (not_readsNaN_of_isNull hnull)
  · have hany := anyHoldsNaN_uniform hitems
    constructor
    · intro hnan
      obtain ⟨hfloats, hword⟩ := hany.1 hnan
      exact .listing hlisting hfloats hword
    · rintro (⟨hsingle, -⟩ | ⟨-, hfloats, hword⟩)
      · exact absurd hlisting hsingle
      · exact hany.2 ⟨hfloats, hword⟩
  · rw [holdsNaN_scalar hscalar]
    constructor
    · exact .single hlisting
    · rintro (⟨-, hword⟩ | ⟨hlist, -, -⟩)
      · exact hword
      · exact absurd hlist hlisting

end Value

end Coerce
end FindQuery
