import FindQuery.DateText.Token
import FindQuery.Proofs.Numeral.Digits

/-! Tokens that come back. -/

namespace FindQuery.DateText
open Numeral (AreDigits)

def EndsNumber (s : Text) : Prop := ∀ c ∈ s.head?, Text.isDigit c = false ∧ c ≠ '.' ∧ c ≠ ','

def EndsWord (s : Text) : Prop := ∀ c ∈ s.head?, Text.isLetter c = false ∧ c ≠ '.'

inductive AreApart : List Token → Prop
  | nil : AreApart []
  | number {digits : Text} {ts : List Token} : digits ≠ [] → AreDigits digits →
      EndsNumber ts.flatten → AreApart ts → AreApart (digits :: ts)
  | pointed {digits fraction : Text} {ts : List Token} : digits ≠ [] → AreDigits digits →
      fraction ≠ [] → AreDigits fraction → EndsNumber ts.flatten → AreApart ts →
      AreApart ((digits ++ '.' :: fraction) :: ts)
  | sign {c : Char} {ts : List Token} : Shape.start c = .nothing → single c = [c] →
      AreApart ts → AreApart ([c] :: ts)
  | letter {c : Char} {ts : List Token} : Text.isLetter c = true → EndsWord ts.flatten →
      AreApart ts → AreApart ([c] :: ts)

section Digits
variable {c : Char}

theorem isDigit_of_isDigit (h : c.isDigit = true) : Text.isDigit c = true := by
  rw [Text.isDigit, Numeral.decimalValue?_of_isDigit h]
  rfl

theorem isLetter_of_isDigit (h : c.isDigit = true) : Text.isLetter c = false :=
  Numeral.of_isDigit_ascii c h (by decide)

theorem start_of_isDigit (h : c.isDigit = true) : Shape.start c = .number := by
  rw [Shape.start, isLetter_of_isDigit h, if_neg Bool.false_ne_true, isDigit_of_isDigit h, if_pos rfl]

end Digits

section Runs
variable {shape : Shape} {reversed digits fraction rest : Text} {c : Char}

theorem tokensFrom_cons (h : Shape.start c ≠ .nothing) :
    tokensFrom .nothing false [] (c :: rest) = tokensFrom (Shape.start c) false [c] rest := by
  rw [tokensFrom]
  cases hstart : Shape.start c with
  | nothing => exact absurd hstart h
  | _ => rfl

theorem tokensFrom_extend {shape' : Shape} {lettered : Bool}
    (h : shape.extend? reversed c = some shape') : tokensFrom shape lettered reversed (c :: rest) =
      tokensFrom shape' (lettered || shape.isLettered) (c :: reversed) rest := by
  rw [tokensFrom, h]

theorem tokensFrom_end (hrest : ∀ c ∈ rest.head?, shape.extend? reversed c = none)
    (hlettered : finish shape shape.isLettered reversed = finish shape false reversed) :
    tokensFrom shape false reversed rest =
      finish shape false reversed ++ tokensFrom .nothing false [] rest := by
  cases rest with
  | nil => exact (List.append_nil _).symm
  | cons c rest =>
    rw [tokensFrom, hrest c rfl, Bool.false_or, hlettered]
    rfl

theorem tokensFrom_digits (hshape : shape = .number ∨ shape = .pointedNumber)
    (hdigits : AreDigits digits) : tokensFrom shape false reversed (digits ++ rest) =
      tokensFrom shape false (digits.reverse ++ reversed) rest := by
  induction digits generalizing reversed with
  | nil => rfl
  | cons d digits ih =>
    obtain ⟨hd, hdigits⟩ := List.forall_mem_cons.1 hdigits
    have hextend : shape.extend? reversed d = some shape := by
      rcases hshape with rfl | rfl
      · rw [Shape.extend?, isDigit_of_isDigit hd, if_pos rfl]
      · rw [Shape.extend?, isDigit_of_isDigit hd, Bool.or_true, if_pos rfl]
    have hlettered : shape.isLettered = false := by
      rcases hshape with rfl | rfl
      · rfl
      · rfl
    rw [List.cons_append, tokensFrom_extend hextend, hlettered, Bool.or_false, ih hdigits,
      List.reverse_cons, List.append_assoc, List.singleton_append]

theorem tokensFrom_start (hne : digits ≠ []) (hdigits : AreDigits digits) :
    tokensFrom .nothing false [] (digits ++ rest) = tokensFrom .number false digits.reverse rest := by
  cases digits with
  | nil => exact absurd rfl hne
  | cons d digits =>
    obtain ⟨hd, hdigits⟩ := List.forall_mem_cons.1 hdigits
    have hstart := start_of_isDigit hd
    rw [List.cons_append, tokensFrom_cons (hstart ▸ Shape.noConfusion), hstart,
      tokensFrom_digits (.inl rfl) hdigits, List.reverse_cons]

theorem tokensFrom_number (hne : digits ≠ []) (hdigits : AreDigits digits) (hrest : EndsNumber rest) :
    tokensFrom .nothing false [] (digits ++ rest) = digits :: tokensFrom .nothing false [] rest := by
  rw [tokensFrom_start hne hdigits, tokensFrom_end _ rfl, finish]
  · rw [List.reverse_reverse]
    rfl
  · intro c hc
    obtain ⟨hdigit, hpoint, hcomma⟩ := hrest c hc
    rw [Shape.extend?, hdigit, if_neg Bool.false_ne_true, if_neg hpoint,
      if_neg fun h => hcomma h.1]

theorem exists_head?_reverse (digits : Text) (hne : fraction ≠ []) (hfraction : AreDigits fraction) :
    ∃ last, (digits ++ '.' :: fraction).reverse.head? = some last ∧ last ≠ '.' ∧ last ≠ ',' := by
  rcases List.eq_nil_or_concat fraction with rfl | ⟨front, last, rfl⟩
  · exact absurd rfl hne
  · rw [List.concat_eq_append] at hfraction
    have hlast : last.isDigit = true := hfraction last List.mem_concat_self
    refine ⟨last, ?_, Numeral.ne_of_isDigit hlast rfl, Numeral.ne_of_isDigit hlast rfl⟩
    rw [List.concat_eq_append, ← List.cons_append, ← List.append_assoc, List.reverse_concat]
    rfl

theorem finish_pointed (hdigits : AreDigits digits) (hne : fraction ≠ [])
    (hfraction : AreDigits fraction) :
    finish .pointedNumber false (digits ++ '.' :: fraction).reverse =
      [digits ++ '.' :: fraction] := by
  obtain ⟨last, hlast, hpoint, hcomma⟩ := exists_head?_reverse digits hne hfraction
  have hcount : (digits ++ '.' :: fraction).count '.' = 1 := by
    rw [List.count_append, List.count_cons_self,
      List.count_eq_zero_of_not_mem (hdigits.not_mem rfl),
      List.count_eq_zero_of_not_mem (hfraction.not_mem rfl)]
  have hmem : '.' ∈ digits ++ '.' :: fraction := List.mem_append_right _ List.mem_cons_self
  have hreverse := (digits ++ '.' :: fraction).reverse_reverse
  generalize (digits ++ '.' :: fraction).reverse = reversed at hlast hreverse ⊢
  simp [finish, Shape.isPointed, hreverse, hlast, hcount, hpoint, hcomma, commaToPoint, hmem]

theorem tokensFrom_pointed (hne : digits ≠ []) (hdigits : AreDigits digits) (hne' : fraction ≠ [])
    (hfraction : AreDigits fraction) (hrest : EndsNumber rest) :
    tokensFrom .nothing false [] ((digits ++ '.' :: fraction) ++ rest) =
      (digits ++ '.' :: fraction) :: tokensFrom .nothing false [] rest := by
  have hpoint : Shape.extend? .number digits.reverse '.' = some .pointedNumber := rfl
  have hreversed : fraction.reverse ++ '.' :: digits.reverse = (digits ++ '.' :: fraction).reverse := by
    rw [List.reverse_append, List.reverse_cons, List.append_assoc, List.singleton_append]
  have hend : ∀ c ∈ rest.head?,
      Shape.extend? .pointedNumber (digits ++ '.' :: fraction).reverse c = none := by
    intro c hc
    obtain ⟨hdigit, hpoint, -⟩ := hrest c hc
    obtain ⟨last, hlast, hbehind, -⟩ := exists_head?_reverse digits hne' hfraction
    generalize (digits ++ '.' :: fraction).reverse = reversed at hlast ⊢
    simp [Shape.extend?, hlast, hdigit, hpoint, hbehind]
  rw [List.append_assoc, List.cons_append, tokensFrom_start hne hdigits, tokensFrom_extend hpoint]
  show tokensFrom .pointedNumber false ('.' :: digits.reverse) (fraction ++ rest) = _
  rw [tokensFrom_digits (.inr rfl) hfraction, hreversed, tokensFrom_end hend rfl,
    finish_pointed hdigits hne' hfraction, List.singleton_append]

theorem tokensFrom_sign (hstart : Shape.start c = .nothing) (hsingle : single c = [c]) :
    tokensFrom .nothing false [] (c :: rest) = [c] :: tokensFrom .nothing false [] rest := by
  have hnone : Shape.extend? .nothing [] c = none := rfl
  rw [tokensFrom, hnone, hstart, hsingle]
  rfl

theorem tokensFrom_letter (hletter : Text.isLetter c = true) (hrest : EndsWord rest) :
    tokensFrom .nothing false [] (c :: rest) = [c] :: tokensFrom .nothing false [] rest := by
  have hstart : Shape.start c = .word := by rw [Shape.start, hletter, if_pos rfl]
  have hend : ∀ d ∈ rest.head?, Shape.extend? .word [c] d = none := by
    intro d hd
    obtain ⟨hletter, hpoint⟩ := hrest d hd
    rw [Shape.extend?, hletter, if_neg Bool.false_ne_true, if_neg hpoint]
  rw [tokensFrom_cons (hstart ▸ Shape.noConfusion), hstart, tokensFrom_end hend rfl]
  rfl

end Runs

variable {ts : List Token}

theorem tokensFrom_flatten (h : AreApart ts) : tokensFrom .nothing false [] ts.flatten = ts := by
  induction h with
  | nil => rfl
  | number hne hdigits hrest _ ih => rw [List.flatten_cons, tokensFrom_number hne hdigits hrest, ih]
  | pointed hne hdigits hne' hfraction hrest _ ih =>
    rw [List.flatten_cons, tokensFrom_pointed hne hdigits hne' hfraction hrest, ih]
  | sign hstart hsingle _ ih =>
    rw [List.flatten_cons, List.singleton_append, tokensFrom_sign hstart hsingle, ih]
  | letter hletter hrest _ ih =>
    rw [List.flatten_cons, List.singleton_append, tokensFrom_letter hletter hrest, ih]

theorem tokens_flatten (h : AreApart ts) (hnull : '\x00' ∉ ts.flatten) : tokens ts.flatten = ts := by
  have hfilter : ts.flatten.filter (· ≠ '\x00') = ts.flatten := by
    rw [List.filter_eq_self]
    intro c hc
    exact decide_eq_true fun heq => hnull (heq ▸ hc)
  rw [tokens, hfilter, tokensFrom_flatten h]

end FindQuery.DateText
