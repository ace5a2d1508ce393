import FindQuery.Proofs.Coerce.Language
import FindQuery.Proofs.Numeral.Octal
import FindQuery.Request.Page

/-! The language of page numbers: an integer or octal literal, and zero decimals or none. -/

namespace FindQuery.Page
open Numeral (IsZeroOctal zeroOctal?)

inductive IsZeroDecimals : Text → Prop
  | absent : IsZeroDecimals []
  | zeros (k : Nat) : IsZeroDecimals ('.' :: List.replicate (k + 1) '0')

/-- A literal, zero decimals or none behind it, and nothing else. -/
def IsNumber (s : Text) (n : Int) : Prop :=
  ∃ literal decimals, s = literal ++ decimals ∧ IsZeroDecimals decimals ∧
    (IsZeroOctal literal n ∨ Coerce.int? literal = some n)

/-- An octal literal, a line break behind it, and zero decimals or none on one side of the break. -/
def IsBrokenOctal (s : Text) (n : Int) : Prop :=
  ∃ literal decimals, (s = literal ++ decimals ++ ['\n'] ∨ s = literal ++ ['\n'] ++ decimals) ∧
    IsZeroDecimals decimals ∧ IsZeroOctal literal n

section Decimals
variable {s literal decimals : Text}

theorem IsZeroDecimals.not_mem_lineBreak (h : IsZeroDecimals decimals) : '\n' ∉ decimals := by
  cases h with
  | absent => exact List.not_mem_nil
  | zeros k =>
    rw [List.mem_cons, not_or]
    exact ⟨by decide, fun hmem => absurd (List.mem_replicate.1 hmem).2 (by decide)⟩

theorem cutZeroDecimals_zeros (literal : Text) (k : Nat) :
    cutZeroDecimals (literal ++ '.' :: List.replicate (k + 1) '0') = literal := by
  have hzeros : ∀ c ∈ List.replicate (k + 1) '0', decide (c = '0') = true := by
    intro c hc
    exact decide_eq_true (List.mem_replicate.1 hc).2
  have hspan : (literal ++ '.' :: List.replicate (k + 1) '0').reverse.span (· = '0') =
      (List.replicate (k + 1) '0', '.' :: literal.reverse) := by
    rw [List.reverse_append, List.reverse_cons, List.reverse_replicate, List.append_assoc,
      List.singleton_append, List.span_eq_takeWhile_dropWhile, List.takeWhile_append_of_pos hzeros,
      List.dropWhile_append_of_pos hzeros, List.takeWhile_cons_of_neg (by decide),
      List.dropWhile_cons_of_neg (by decide), List.append_nil]
  unfold cutZeroDecimals
  rw [hspan]
  exact List.reverse_reverse literal

theorem cutZeroDecimals_cases (s : Text) : cutZeroDecimals s = s ∨
    ∃ k, s = cutZeroDecimals s ++ '.' :: List.replicate (k + 1) '0' := by
  unfold cutZeroDecimals
  split
  · next z zs rest hspan =>
    right
    rw [List.span_eq_takeWhile_dropWhile] at hspan
    obtain ⟨htake, hdrop⟩ := Prod.mk.inj hspan
    have hzeros : z :: zs = List.replicate (zs.length + 1) '0' := by
      apply List.eq_replicate_of_mem
      intro c hc
      rw [← htake] at hc
      have hzero := List.mem_takeWhile_imp hc
      exact of_decide_eq_true hzero
    have hsplit : s.reverse = List.replicate (zs.length + 1) '0' ++ '.' :: rest := by
      rw [← hzeros, ← htake, ← hdrop, List.takeWhile_append_dropWhile]
    refine ⟨zs.length, ?_⟩
    rw [← List.reverse_reverse s, hsplit, List.reverse_append, List.reverse_replicate,
      List.reverse_cons, List.append_assoc, List.singleton_append]
  · exact .inl rfl

theorem exists_zeroDecimals (s : Text) :
    ∃ decimals, IsZeroDecimals decimals ∧ s = cutZeroDecimals s ++ decimals := by
  rcases cutZeroDecimals_cases s with hsame | ⟨k, hk⟩
  · exact ⟨[], .absent, by rw [hsame, List.append_nil]⟩
  · exact ⟨_, .zeros k, hk⟩

theorem cutZeroDecimals_append (hpoint : '.' ∉ literal) (h : IsZeroDecimals decimals) :
    cutZeroDecimals (literal ++ decimals) = literal := by
  cases h with
  | zeros k => exact cutZeroDecimals_zeros literal k
  | absent =>
    rw [List.append_nil]
    refine (cutZeroDecimals_cases literal).resolve_right ?_
    rintro ⟨k, hk⟩
    exact hpoint (hk ▸ List.mem_append_right _ List.mem_cons_self)

end Decimals

section Ending
variable {s : Text}

theorem cutLineBreak_of_not_mem (h : '\n' ∉ s) : cutLineBreak s = (s, []) := by
  rw [cutLineBreak, if_neg]
  intro hlast
  exact h (List.mem_of_getLast? hlast)

theorem cutLineBreak_concat (s : Text) : cutLineBreak (s ++ ['\n']) = (s, ['\n']) := by
  rw [cutLineBreak, if_pos List.getLast?_concat, List.dropLast_concat]

theorem cutLineBreak_cases (s : Text) : cutLineBreak s = (s, []) ∨
    ∃ body, s = body ++ ['\n'] ∧ cutLineBreak s = (body, ['\n']) := by
  by_cases hlast : s.getLast? = some '\n'
  · obtain ⟨body, rfl⟩ := List.getLast?_eq_some_iff.1 hlast
    exact .inr ⟨body, rfl, cutLineBreak_concat body⟩
  · exact .inl (if_neg hlast)

end Ending

section Number
variable {s literal decimals : Text} {n : Int}

theorem not_mem_of_isLiteral {c : Char} (hc : c ∈ ['.', '\n'])
    (h : IsZeroOctal literal n ∨ Coerce.int? literal = some n) : c ∉ literal := by
  have hall : ∀ c ∈ ['.', '\n'], c.isAlphanum = false ∧ c ∉ ['+', '-', '_'] :=
    List.forall_mem_cons.2 ⟨by decide, List.forall_mem_cons.2 ⟨by decide, nofun⟩⟩
  obtain ⟨halphanum, hmark⟩ := hall c hc
  rcases h with hoctal | hint
  · exact hoctal.not_mem halphanum hmark
  · exact (Coerce.int?_eq_some_iff.1 hint).not_mem halphanum hmark

theorem zeroOctal?_or_int? : (zeroOctal? literal).or (Coerce.int? literal) = some n ↔
    IsZeroOctal literal n ∨ Coerce.int? literal = some n := by
  rw [Option.or_eq_some_iff, Numeral.zeroOctal?_eq_some_iff]
  constructor
  · exact Or.imp_right And.right
  · rintro (hoctal | hint)
    · exact .inl hoctal
    · cases hread : zeroOctal? literal with
      | none => exact .inr ⟨rfl, hint⟩
      | some m =>
        have hoctal := Numeral.zeroOctal?_eq_some_iff.1 hread
        obtain rfl := hoctal.eq_of_isInteger (Coerce.int?_eq_some_iff.1 hint)
        exact .inl hoctal

theorem int?_append_lineBreak (s : Text) : Coerce.int? (s ++ ['\n']) = none := by
  rw [Option.eq_none_iff_forall_ne_some]
  intro n hn
  exact not_mem_of_isLiteral (c := '\n') (by decide) (.inr hn)
    (List.mem_append_right _ List.mem_cons_self)

theorem number?_append (hdecimals : IsZeroDecimals decimals) (hpoint : '.' ∉ literal)
    (hbreak : '\n' ∉ literal) :
    number? (literal ++ decimals) = (zeroOctal? literal).or (Coerce.int? literal) := by
  have hnone : '\n' ∉ literal ++ decimals := by
    rw [List.mem_append, not_or]
    exact ⟨hbreak, hdecimals.not_mem_lineBreak⟩
  have hdrop : dropZeroDecimals (literal ++ decimals) = literal := by
    simp only [dropZeroDecimals, cutLineBreak_of_not_mem hnone,
      cutZeroDecimals_append hpoint hdecimals, List.append_nil]
  simp only [number?, hdrop, cutLineBreak_of_not_mem hbreak]

theorem number?_of_drop_eq_lineBreak (h : dropZeroDecimals s = literal ++ ['\n']) :
    number? s = zeroOctal? literal := by
  simp only [number?, h, cutLineBreak_concat, int?_append_lineBreak, Option.or_none]

theorem dropZeroDecimals_concat (s : Text) :
    dropZeroDecimals (s ++ ['\n']) = cutZeroDecimals s ++ ['\n'] := by
  simp only [dropZeroDecimals, cutLineBreak_concat]

theorem dropZeroDecimals_lineBreak_append (hdecimals : IsZeroDecimals decimals)
    (hpoint : '.' ∉ literal) :
    dropZeroDecimals (literal ++ ['\n'] ++ decimals) = literal ++ ['\n'] := by
  cases hdecimals with
  | absent =>
    rw [List.append_nil, dropZeroDecimals_concat]
    have hcut := cutZeroDecimals_append hpoint .absent
    rw [List.append_nil] at hcut
    rw [hcut]
  | zeros k =>
    have hlast : (literal ++ ['\n'] ++ '.' :: List.replicate (k + 1) '0').getLast? = some '0' := by
      rw [List.replicate_succ', ← List.cons_append, ← List.append_assoc, List.getLast?_concat]
    rw [dropZeroDecimals, cutLineBreak, if_neg (by rw [hlast]; decide)]
    show cutZeroDecimals _ ++ [] = _
    rw [cutZeroDecimals_zeros, List.append_nil]

theorem number?_eq_some_iff : number? s = some n ↔ IsNumber s n ∨ IsBrokenOctal s n := by
  constructor
  · intro h
    rcases cutLineBreak_cases s with hcut | ⟨body, rfl, -⟩
    · obtain ⟨decimals, hdecimals, hs⟩ := exists_zeroDecimals s
      have hdrop : dropZeroDecimals s = cutZeroDecimals s := by
        simp only [dropZeroDecimals, hcut, List.append_nil]
      rcases cutLineBreak_cases (cutZeroDecimals s) with hinner | ⟨literal, hliteral, -⟩
      · simp only [number?, hdrop, hinner] at h
        exact .inl ⟨_, decimals, hs, hdecimals, zeroOctal?_or_int?.1 h⟩
      · rw [number?_of_drop_eq_lineBreak (hdrop.trans hliteral)] at h
        rw [hliteral] at hs
        exact .inr ⟨literal, decimals, .inr hs, hdecimals, Numeral.zeroOctal?_eq_some_iff.1 h⟩
    · obtain ⟨decimals, hdecimals, hbody⟩ := exists_zeroDecimals body
      rw [number?_of_drop_eq_lineBreak (dropZeroDecimals_concat body)] at h
      exact .inr ⟨_, decimals, .inl (by rw [← hbody]), hdecimals,
        Numeral.zeroOctal?_eq_some_iff.1 h⟩
  · rintro (⟨literal, decimals, rfl, hdecimals, hliteral⟩ |
      ⟨literal, decimals, hs, hdecimals, hoctal⟩)
    · rw [number?_append hdecimals (not_mem_of_isLiteral (by decide) hliteral)
        (not_mem_of_isLiteral (by decide) hliteral)]
      exact zeroOctal?_or_int?.2 hliteral
    · have hpoint : '.' ∉ literal := not_mem_of_isLiteral (by decide) (.inl hoctal)
      have hdrop : dropZeroDecimals s = literal ++ ['\n'] := by
        rcases hs with rfl | rfl
        · rw [dropZeroDecimals_concat, cutZeroDecimals_append hpoint hdecimals]
        · exact dropZeroDecimals_lineBreak_append hdecimals hpoint
      rw [number?_of_drop_eq_lineBreak hdrop]
      exact Numeral.zeroOctal?_eq_some_iff.2 hoctal

theorem IsNumber.not_mem_lineBreak (h : IsNumber s n) : '\n' ∉ s := by
  obtain ⟨literal, decimals, rfl, hdecimals, hliteral⟩ := h
  rw [List.mem_append, not_or]
  exact ⟨not_mem_of_isLiteral (by decide) hliteral, hdecimals.not_mem_lineBreak⟩

theorem IsBrokenOctal.mem_lineBreak (h : IsBrokenOctal s n) : '\n' ∈ s := by
  obtain ⟨literal, decimals, rfl | rfl, -, -⟩ := h
  · exact List.mem_append_right _ List.mem_cons_self
  · exact List.mem_append_left _ (List.mem_append_right _ List.mem_cons_self)

/-- The texts that are read as page numbers, each with its number. Those that are read although they are not
page numbers from end to end are the octal literals with a line break behind them, in front of their zero
decimals or at the end. -/
theorem number?_language (s : Text) :
    (∀ n, number? s = some n ↔ IsNumber s n ∨ IsBrokenOctal s n) ∧
      (number? s = none ↔ ∀ n, ¬ IsNumber s n ∧ ¬ IsBrokenOctal s n) ∧
      ∀ n, IsBrokenOctal s n ↔ number? s = some n ∧ ∀ m, ¬ IsNumber s m := by
  refine ⟨fun n => number?_eq_some_iff, ?_, fun n => ?_⟩
  · rw [Option.eq_none_iff_forall_ne_some]
    exact forall_congr' fun n => (not_congr number?_eq_some_iff).trans not_or
  · rw [number?_eq_some_iff]
    constructor
    · intro hbroken
      exact ⟨.inr hbroken, fun m hm => hm.not_mem_lineBreak hbroken.mem_lineBreak⟩
    · rintro ⟨hread, hnone⟩
      exact hread.resolve_left (hnone n)

theorem number?_octal_lineBreak :
    number? "010\n".toList = some 8 ∧ ∀ n, ¬ IsNumber "010\n".toList n :=
  ⟨by decide, fun _ h => h.not_mem_lineBreak (by decide)⟩

example : number? "010\n.0".toList = some 8 ∧ number? "010\n.0\n".toList = none := by decide

end Number

end FindQuery.Page
