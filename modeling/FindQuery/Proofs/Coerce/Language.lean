import FindQuery.Proofs.Coerce
import FindQuery.Proofs.Binary64.Literal

/-! What a single text is read as, by the languages that are tried in turn. -/

namespace FindQuery

namespace Coerce
open Numeral (IsInteger isNumeric AreGroupedNumeric)
open Binary64 (Literal IsLiteral)

def IsFloat (s : Text) : Prop := ∃ l, IsLiteral s l

def truthWords (b : Bool) : List Text :=
  ((if b then ["t", "T", "TRUE", "true", "True"] else ["f", "F", "FALSE", "false", "False"]) :
    List String).map String.toList

structure IsOther (s : Text) : Prop where
  not_float : ¬ IsFloat s
  not_integer (n : Int) : ¬ IsInteger s n
  not_truth (b : Bool) : s ∉ truthWords b

section Readers
variable {s : Text}

theorem toNat_lt_of_isAlphanum {c : Char} (h : c.isAlphanum = true) : c.toNat < 128 := by
  have hranges : ((c.isUpper || c.isLower) || c.isDigit) = true := h
  rcases Bool.or_eq_true_iff.1 hranges with hletter | hdigit
  · rcases Bool.or_eq_true_iff.1 hletter with hupper | hlower
    · have hle : c.toNat ≤ 90 := (of_decide_eq_true hupper).2
      omega
    · have hle : c.toNat ≤ 122 := of_decide_eq_true (Bool.and_eq_true_iff.1 hlower).2
      omega
  · exact Nat.lt_of_le_of_lt (Numeral.toNat_of_isDigit hdigit).2 (by decide)

theorem toNat_lt_of_isNumeric {c : Char} (h : isNumeric c = true ∨ c = '_') : c.toNat < 128 := by
  rcases h with hnumeric | rfl
  · rcases Bool.or_eq_true_iff.1 hnumeric with halphanum | hmark
    · exact toNat_lt_of_isAlphanum halphanum
    · have hmem : c ∈ ['+', '-', '.'] := of_decide_eq_true hmark
      simp only [List.mem_cons, List.not_mem_nil, or_false] at hmem
      rcases hmem with rfl | rfl | rfl
      all_goals decide
  · decide

theorem isBlank_of_isNumeric {c : Char} (h : isNumeric c = true ∨ c = '_') :
    Text.isBlank c = false := by
  have hall : ∀ k < 128, isNumeric (Char.ofNat k) = true ∨ Char.ofNat k = '_' →
      Text.isBlank (Char.ofNat k) = false := by
    decide +kernel
  have hblank : isNumeric c = true ∨ c = '_' → Text.isBlank c = false :=
    Text.of_toNat_lt c (toNat_lt_of_isNumeric h) hall
  exact hblank h

theorem isPlain_of_areGroupedNumeric (h : AreGroupedNumeric s) : isPlain s = true := by
  have hstrip : Text.strip s = s :=
    Text.stripWith_of_forall fun c hc => isBlank_of_isNumeric (h c hc)
  rw [isPlain, hstrip, decide_eq_true rfl, Bool.true_and, Text.isAscii, List.all_eq_true]
  intro c hc
  exact decide_eq_true (toNat_lt_of_isNumeric (h c hc))

theorem float?_eq_some_iff {x : Binary64} : float? s = some x ↔ ∃ l, IsLiteral s l ∧ l.value = x := by
  unfold float?
  constructor
  · intro h
    split at h
    · obtain ⟨l, hl, hx⟩ := Option.map_eq_some_iff.1 h
      exact ⟨l, Binary64.ofText?_eq_some_iff.1 hl, hx⟩
    · exact nomatch h
  · rintro ⟨l, hl, hx⟩
    have hunparted : s.contains '_' = false := by
      rw [List.contains_eq_mem, decide_eq_false_iff_not]
      intro hmem
      exact absurd (hl.isNumeric '_' hmem) (by decide)
    rw [isPlain_of_areGroupedNumeric fun c hc => .inl (hl.isNumeric c hc), hunparted]
    exact Option.map_eq_some_iff.2 ⟨l, Binary64.ofText?_eq_some_iff.2 hl, hx⟩

theorem isFloat_iff : IsFloat s ↔ (float? s).isSome = true := by
  rw [Option.isSome_iff_exists]
  simp only [float?_eq_some_iff, IsFloat]
  exact ⟨fun ⟨l, hl⟩ => ⟨l.value, l, hl, rfl⟩, fun ⟨_, l, hl, _⟩ => ⟨l, hl⟩⟩

theorem int?_eq_some_iff {n : Int} : int? s = some n ↔ IsInteger s n := by
  rw [← Numeral.literal?_eq_some_iff, int?]
  constructor
  · intro h
    split at h
    · exact h
    · exact nomatch h
  · intro h
    rw [isPlain_of_areGroupedNumeric (Numeral.literal?_eq_some_iff.1 h).areGroupedNumeric]
    exact h

theorem isFloat_or_mem_truthWords {b : Bool} (h : bool? s = some b) : IsFloat s ∨ s ∈ truthWords b := by
  have htrue : ∀ word ∈ trueWords, (float? word.toList).isSome = true ∨
      word.toList ∈ truthWords true := by
    decide +kernel
  have hfalse : ∀ word ∈ falseWords, (float? word.toList).isSome = true ∨
      word.toList ∈ truthWords false := by
    decide +kernel
  rw [isFloat_iff]
  unfold bool? at h
  split at h
  · next hany =>
    obtain rfl := Option.some.inj h
    obtain ⟨word, hword, hs⟩ := List.any_eq_true.1 hany
    rw [← of_decide_eq_true hs]
    exact htrue word hword
  · split at h
    · next hany =>
      obtain rfl := Option.some.inj h
      obtain ⟨word, hword, hs⟩ := List.any_eq_true.1 hany
      rw [← of_decide_eq_true hs]
      exact hfalse word hword
    · exact nomatch h

theorem readers_of_mem_truthWords {b : Bool} (h : s ∈ truthWords b) :
    float? s = none ∧ int? s = none ∧ bool? s = some b := by
  have hall : ∀ b, ∀ word ∈ truthWords b,
      float? word = none ∧ int? word = none ∧ bool? word = some b := by
    decide +kernel
  exact hall b s h

end Readers

inductive IsReadAs [Host] (s : Text) : Except DateText.PrecisionError Value → Prop
  | float {x : Binary64} : float? s = some x → IsReadAs s (.ok (.float x))
  | integer {n : Int} : ¬ IsFloat s → IsInteger s n → IsReadAs s (.ok (.int n))
  | truth {b : Bool} : s ∈ truthWords b → IsReadAs s (.ok (.bool b))
  | moment {m : Moment} : IsOther s → Coerce.moment s = .ok (some m) → IsReadAs s (.ok (.moment m))
  | text : IsOther s → Coerce.moment s = .ok none → IsReadAs s (.ok (.text s))
  | refused {e : DateText.PrecisionError} : IsOther s → Coerce.moment s = .error e →
      IsReadAs s (.error e)

section Scalar
variable {s : Text}

theorem not_isFloat_iff : ¬ IsFloat s ↔ float? s = none := by
  rw [isFloat_iff, Option.not_isSome_iff_eq_none]

theorem not_isInteger_iff : (∀ n, ¬ IsInteger s n) ↔ int? s = none := by
  rw [Option.eq_none_iff_forall_ne_some]
  simp only [ne_eq, int?_eq_some_iff]

theorem plain?_of_isOther (h : IsOther s) : plain? s = none := by
  have hbool : bool? s = none :=
    Option.eq_none_iff_forall_ne_some.2 fun b hb =>
      (isFloat_or_mem_truthWords hb).elim h.not_float (h.not_truth b)
  rw [plain?, not_isFloat_iff.1 h.not_float, not_isInteger_iff.1 h.not_integer, hbool]
  rfl

theorem scalar_of_isOther [Host] (h : IsOther s) :
    scalar s = (Coerce.moment s).map fun m? => (m?.map Value.moment).getD (.text s) := by
  rw [scalar, plain?_of_isOther h]

theorem scalar_of_isReadAs [Host] {r : Except DateText.PrecisionError Value} (h : IsReadAs s r) :
    scalar s = r := by
  cases h with
  | float hx => rw [scalar, plain?, hx]; rfl
  | integer hfloat hn =>
    rw [scalar, plain?, not_isFloat_iff.1 hfloat, int?_eq_some_iff.2 hn]
    rfl
  | truth hb =>
    obtain ⟨hfloat, hint, hbool⟩ := readers_of_mem_truthWords hb
    rw [scalar, plain?, hfloat, hint, hbool]
    rfl
  | moment hother hm => rw [scalar_of_isOther hother, hm]; rfl
  | text hother hm => rw [scalar_of_isOther hother, hm]; rfl
  | refused hother hm => rw [scalar_of_isOther hother, hm]; rfl

theorem isReadAs_of_isOther [Host] (h : IsOther s) : ∃ r, IsReadAs s r := by
  cases hm : Coerce.moment s with
  | error e => exact ⟨_, .refused h hm⟩
  | ok m? =>
    cases m? with
    | none => exact ⟨_, .text h hm⟩
    | some m => exact ⟨_, .moment h hm⟩

theorem exists_isReadAs [Host] (s : Text) : ∃ r, IsReadAs s r := by
  by_cases hfloat : IsFloat s
  · obtain ⟨x, hx⟩ := Option.isSome_iff_exists.1 (isFloat_iff.1 hfloat)
    exact ⟨_, .float hx⟩
  · by_cases hint : ∃ n, IsInteger s n
    · obtain ⟨n, hn⟩ := hint
      exact ⟨_, .integer hfloat hn⟩
    · by_cases htruth : ∃ b, s ∈ truthWords b
      · obtain ⟨b, hb⟩ := htruth
        exact ⟨_, .truth hb⟩
      · exact isReadAs_of_isOther ⟨hfloat, not_exists.1 hint, not_exists.1 htruth⟩

theorem scalar_eq_iff [Host] {r : Except DateText.PrecisionError Value} : scalar s = r ↔ IsReadAs s r := by
  refine ⟨?_, scalar_of_isReadAs⟩
  rintro rfl
  obtain ⟨r, hr⟩ := exists_isReadAs s
  rwa [scalar_of_isReadAs hr]

end Scalar

section Value
variable {operator : Operator} {raw : Text}

theorem isNull_eq_false_of_isDigit {c : Char} (hmem : c ∈ raw) (hc : c.isDigit = true) :
    isNull raw = false := by
  have hlower := Numeral.mem_lowerAscii_of_isDigit hmem hc
  have hword : ∀ word : String, word.toList.any Char.isDigit = false →
      Text.lowerAscii raw ≠ word.toList := by
    intro word hnone heq
    exact List.any_eq_false.1 hnone c (heq ▸ hlower) hc
  rw [isNull, Bool.or_eq_false_iff]
  exact ⟨decide_eq_false (hword "null" (by decide)), decide_eq_false (hword "nil" (by decide))⟩

theorem value_eq_scalar [Host] (hlisting : ¬ IsListing operator) (hregex : operator ≠ .regex)
    (hne : raw ≠ []) (hnull : isNull raw = false) : value operator raw = scalar raw := by
  have hraw : ¬ (operator = .regex ∨ raw = []) := not_or.2 ⟨hregex, hne⟩
  rw [value, if_neg hraw, hnull, if_neg Bool.false_ne_true]
  exact if_neg hlisting

theorem value_eq_uniform [Host] (hlisting : IsListing operator) (hne : raw ≠ []) (hnull : isNull raw = false) :
    value operator raw = (uniform (Text.splitOn ',' raw)).map .list := by
  have hraw : ¬ (operator = .regex ∨ raw = []) := by
    rintro (rfl | hnil)
    · exact absurd hlisting (by decide)
    · exact hne hnil
  rw [value, if_neg hraw, hnull, if_neg Bool.false_ne_true]
  exact if_pos hlisting

/-- The language of every kind of value. A text of no such language is read as a moment where it is a
complete date, and stays a text where it is none. -/
theorem value_languages [Host] (hlisting : ¬ IsListing operator) (hregex : operator ≠ .regex)
    (hne : raw ≠ []) (hnull : isNull raw = false) :
    ((∃ x, value operator raw = .ok (.float x)) ↔ IsFloat raw) ∧
      (∀ n, value operator raw = .ok (.int n) ↔ IsInteger raw n ∧ ¬ IsFloat raw) ∧
      (∀ b, value operator raw = .ok (.bool b) ↔ raw ∈ truthWords b) ∧
      (∀ m, value operator raw = .ok (.moment m) ↔ IsOther raw ∧ moment raw = .ok (some m)) ∧
      (value operator raw = .ok (.text raw) ↔ IsOther raw ∧ moment raw = .ok none) ∧
      ∀ e, value operator raw = .error e ↔ IsOther raw ∧ moment raw = .error e := by
  rw [value_eq_scalar hlisting hregex hne hnull]
  simp only [scalar_eq_iff]
  refine ⟨⟨?_, ?_⟩, fun n => ⟨?_, ?_⟩, fun b => ⟨?_, .truth⟩, fun m => ⟨?_, ?_⟩, ⟨?_, ?_⟩,
    fun e => ⟨?_, ?_⟩⟩
  · rintro ⟨x, hfloat⟩
    cases hfloat with
    | float hx => exact isFloat_iff.2 (Option.isSome_iff_exists.2 ⟨x, hx⟩)
  · intro hfloat
    obtain ⟨x, hx⟩ := Option.isSome_iff_exists.1 (isFloat_iff.1 hfloat)
    exact ⟨x, .float hx⟩
  · intro hinteger
    cases hinteger with
    | integer hfloat hn => exact ⟨hn, hfloat⟩
  · rintro ⟨hn, hfloat⟩
    exact .integer hfloat hn
  · intro htruth
    cases htruth with
    | truth hb => exact hb
  · intro hmoment
    cases hmoment with
    | moment hother hm => exact ⟨hother, hm⟩
  · rintro ⟨hother, hm⟩
    exact .moment hother hm
  · intro htext
    cases htext with
    | text hother hm => exact ⟨hother, hm⟩
  · rintro ⟨hother, hm⟩
    exact .text hother hm
  · intro hrefused
    cases hrefused with
    | refused hother hm => exact ⟨hother, hm⟩
  · rintro ⟨hother, hm⟩
    exact .refused hother hm

def markedText : Text := "-0x_1F".toList

theorem value_languages_markedText : ¬ IsListing .gt ∧ Operator.gt ≠ .regex ∧ markedText ≠ [] ∧
    isNull markedText = false ∧ IsInteger markedText (-31) ∧
      value .gt markedText = .ok (.int (-31)) := by
  have hinteger : IsInteger markedText (-31) := int?_eq_some_iff.1 (by decide +kernel)
  have hfloat : ¬ IsFloat markedText := not_isFloat_iff.2 (by decide +kernel)
  have hlisting : ¬ IsListing .gt := by decide
  have hregex : Operator.gt ≠ .regex := by decide
  have hne : markedText ≠ [] := by decide
  have hnull : isNull markedText = false := by decide
  obtain ⟨-, hintegers, -⟩ := value_languages hlisting hregex hne hnull
  exact ⟨hlisting, hregex, hne, hnull, hinteger, (hintegers (-31)).2 ⟨hinteger, hfloat⟩⟩

def longHourText : Text := "11111111111111111111111111111h".toList

theorem value_longHourText : IsOther longHourText ∧ (∀ m, moment longHourText ≠ .ok (some m)) ∧
    value .eq longHourText = .error ⟨⟩ ∧ value .eq longHourText ≠ .ok (.text longHourText) := by
  have hread : moment longHourText = .error ⟨⟩ := by decide +kernel
  have hother : IsOther longHourText :=
    ⟨not_isFloat_iff.2 (by decide +kernel), not_isInteger_iff.2 (by decide +kernel), by decide⟩
  have hvalue : value .eq longHourText = .error ⟨⟩ := by
    rw [value_eq_scalar (by decide) (by decide) (by decide) (by decide)]
    exact scalar_of_isReadAs (.refused hother hread)
  refine ⟨hother, fun m hm => ?_, hvalue, fun htext => ?_⟩
  · exact nomatch hread.symm.trans hm
  · exact nomatch hvalue.symm.trans htext

end Value

end Coerce
end FindQuery
