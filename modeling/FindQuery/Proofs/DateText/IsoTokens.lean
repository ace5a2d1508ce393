import FindQuery.Calendar.Moment
import FindQuery.Proofs.DateText.Token

/-! The tokens of ISO texts. -/

namespace FindQuery

namespace Moment
open Numeral (padded)

/-- A moment that an ISO text can tell: a day of the calendar, a time of day, and an offset of whole minutes
below a day, if there is one. -/
structure IsIso (m : Moment) : Prop where
  date : m.date.Valid
  clock : m.clock.Valid
  zone : m.HasValidZone
  minutes : ∀ seconds ∈ m.offset, seconds % 60 = 0

def unnamed (m : Moment) : Moment := { m with zone := m.offset.map (⟨·, none⟩) }

def offsetTokens (seconds : Int) : List Text :=
  [[if seconds < 0 then '-' else '+'], padded 2 (seconds.natAbs / 3600), [':'],
    padded 2 (seconds.natAbs / 60 % 60)]

def secondsToken (m : Moment) : Text :=
  padded 2 m.clock.second ++ if m.clock.microsecond = 0 then [] else m.microsecondText

def zoneTokens (m : Moment) : List Text := m.offset.elim [] offsetTokens

def timeTokens (m : Moment) : List Text :=
  padded 2 m.clock.hour :: [':'] :: padded 2 m.clock.minute :: [':'] :: m.secondsToken :: m.zoneTokens

def isoTokens (mark : Char) (m : Moment) : List Text :=
  padded 4 m.date.year :: ['-'] :: padded 2 m.date.month :: ['-'] :: padded 2 m.date.day ::
    [mark] :: m.timeTokens

variable {m : Moment}

theorem isoText_eq (mark : Char) : m.isoText mark = m.dateText ++ mark :: m.clockText
    ++ (if m.clock.microsecond = 0 then [] else m.microsecondText) ++ m.offset.elim [] offsetText := by
  rw [isoText]
  cases m.offset with
  | none => rfl
  | some seconds => rfl

theorem flatten_zoneTokens (h : ∀ seconds ∈ m.offset, seconds % 60 = 0) :
    m.zoneTokens.flatten = m.offset.elim [] offsetText := by
  unfold zoneTokens
  cases hoffset : m.offset with
  | none => rfl
  | some seconds =>
    have hminutes := h seconds hoffset
    have hwhole : seconds.natAbs % 60 = 0 := by omega
    simp [offsetTokens, offsetText, hwhole]

theorem flatten_isoTokens (h : ∀ seconds ∈ m.offset, seconds % 60 = 0) (mark : Char) :
    (m.isoTokens mark).flatten = m.isoText mark := by
  rw [isoText_eq]
  simp only [isoTokens, timeTokens, secondsToken, List.flatten_cons, flatten_zoneTokens h, dateText,
    clockText, List.append_assoc, List.cons_append, List.nil_append]

end Moment

namespace DateText
open Numeral (padded)

def IsMark (mark : Char) : Prop := mark = 'T' ∨ mark = ' '

section Tokens
variable {m : Moment} {mark : Char} {ts : List Token}

theorem endsNumber_nil : EndsNumber [] := nofun

theorem endsNumber_cons {c : Char} {s : Text} (h : Text.isDigit c = false ∧ c ≠ '.' ∧ c ≠ ',') :
    EndsNumber (c :: s) := by
  intro d hd
  obtain rfl := Option.some.inj hd
  exact h

theorem endsWord_padded {width n : Nat} : EndsWord ((padded width n :: ts).flatten) := by
  obtain ⟨d, rest, hpadded⟩ := List.exists_cons_of_ne_nil (Numeral.padded_ne_nil width n)
  have hdigit : d.isDigit = true :=
    Numeral.areDigits_padded width n d (hpadded ▸ List.mem_cons_self)
  intro c hc
  rw [List.flatten_cons, hpadded] at hc
  obtain rfl := Option.some.inj hc
  exact ⟨isLetter_of_isDigit hdigit, Numeral.ne_of_isDigit hdigit rfl⟩

theorem areApart_padded {width n : Nat} (hrest : EndsNumber ts.flatten) (h : AreApart ts) :
    AreApart (padded width n :: ts) :=
  .number (Numeral.padded_ne_nil width n) (Numeral.areDigits_padded width n) hrest h

theorem areApart_zoneTokens : AreApart m.zoneTokens ∧ EndsNumber m.zoneTokens.flatten := by
  unfold Moment.zoneTokens
  cases m.offset with
  | none => exact ⟨.nil, endsNumber_nil⟩
  | some seconds =>
    have hminutes : ∀ n, AreApart [padded 2 n] := fun n => areApart_padded endsNumber_nil .nil
    have htokens : ∀ n k, AreApart [padded 2 n, [':'], padded 2 k] := fun n k =>
      areApart_padded (endsNumber_cons (by decide)) (.sign (by decide) (by decide) (hminutes k))
    show AreApart (Moment.offsetTokens seconds) ∧ EndsNumber (Moment.offsetTokens seconds).flatten
    unfold Moment.offsetTokens
    split
    · exact ⟨.sign (by decide) (by decide) (htokens _ _), endsNumber_cons (by decide)⟩
    · exact ⟨.sign (by decide) (by decide) (htokens _ _), endsNumber_cons (by decide)⟩

theorem areApart_timeTokens : AreApart m.timeTokens := by
  obtain ⟨hzone, hend⟩ := areApart_zoneTokens (m := m)
  have hseconds : AreApart (m.secondsToken :: m.zoneTokens) := by
    unfold Moment.secondsToken
    split
    · rw [List.append_nil]
      exact areApart_padded hend hzone
    · exact .pointed (Numeral.padded_ne_nil 2 _) (Numeral.areDigits_padded 2 _)
        (Numeral.padded_ne_nil 6 _) (Numeral.areDigits_padded 6 _) hend hzone
  have hminutes : AreApart (padded 2 m.clock.minute :: [':'] :: m.secondsToken :: m.zoneTokens) :=
    areApart_padded (endsNumber_cons (by decide)) (.sign (by decide) (by decide) hseconds)
  exact areApart_padded (endsNumber_cons (by decide)) (.sign (by decide) (by decide) hminutes)

theorem areApart_isoTokens (hmark : IsMark mark) : AreApart (m.isoTokens mark) := by
  have htime := areApart_timeTokens (m := m)
  have hday : AreApart (padded 2 m.date.day :: [mark] :: m.timeTokens) := by
    rcases hmark with rfl | rfl
    · exact areApart_padded (endsNumber_cons (by decide))
        (.letter (by decide) endsWord_padded htime)
    · exact areApart_padded (endsNumber_cons (by decide)) (.sign (by decide) (by decide) htime)
  have hmonth : AreApart (padded 2 m.date.month :: ['-'] :: padded 2 m.date.day :: [mark] :: m.timeTokens) :=
    areApart_padded (endsNumber_cons (by decide)) (.sign (by decide) (by decide) hday)
  exact areApart_padded (endsNumber_cons (by decide)) (.sign (by decide) (by decide) hmonth)

def isIsoChar (c : Char) : Bool := c.isDigit || c ∈ "-+:.T ".toList

theorem isIsoChar_of_mem_padded {width n : Nat} : ∀ c ∈ padded width n, isIsoChar c = true :=
  fun c hc => Bool.or_eq_true_iff.2 (.inl (Numeral.areDigits_padded width n c hc))

theorem isIsoChar_of_mem_zoneTokens : ∀ t ∈ m.zoneTokens, ∀ c ∈ t, isIsoChar c = true := by
  unfold Moment.zoneTokens
  cases m.offset with
  | none => exact nofun
  | some seconds =>
    have hsign : isIsoChar (if seconds < 0 then '-' else '+') = true := by
      split
      · decide
      · decide
    show ∀ t ∈ Moment.offsetTokens seconds, ∀ c ∈ t, isIsoChar c = true
    simp only [Moment.offsetTokens, List.forall_mem_cons]
    exact ⟨⟨hsign, nofun⟩, isIsoChar_of_mem_padded, ⟨by decide, nofun⟩, isIsoChar_of_mem_padded, nofun⟩

theorem isIsoChar_of_mem_secondsToken : ∀ c ∈ m.secondsToken, isIsoChar c = true := by
  unfold Moment.secondsToken
  rw [List.forall_mem_append]
  refine ⟨isIsoChar_of_mem_padded, ?_⟩
  split
  · exact nofun
  · exact List.forall_mem_cons.2 ⟨by decide, isIsoChar_of_mem_padded⟩

theorem isIsoChar_of_mem (hmark : IsMark mark) :
    ∀ t ∈ m.isoTokens mark, ∀ c ∈ t, isIsoChar c = true := by
  have hmark : isIsoChar mark = true := by
    rcases hmark with rfl | rfl
    · decide
    · decide
  simp only [Moment.isoTokens, Moment.timeTokens, List.forall_mem_cons]
  exact ⟨isIsoChar_of_mem_padded, ⟨by decide, nofun⟩, isIsoChar_of_mem_padded, ⟨by decide, nofun⟩,
    isIsoChar_of_mem_padded, ⟨hmark, nofun⟩, isIsoChar_of_mem_padded, ⟨by decide, nofun⟩,
    isIsoChar_of_mem_padded, ⟨by decide, nofun⟩, isIsoChar_of_mem_secondsToken,
    isIsoChar_of_mem_zoneTokens⟩

theorem isIsoChar_of_mem_isoText (h : m.IsIso) (hmark : IsMark mark) :
    ∀ c ∈ m.isoText mark, isIsoChar c = true := by
  intro c hc
  rw [← Moment.flatten_isoTokens h.minutes, List.mem_flatten] at hc
  obtain ⟨t, ht, hc⟩ := hc
  exact isIsoChar_of_mem hmark t ht c hc

theorem tokens_isoText (h : m.IsIso) (hmark : IsMark mark) :
    tokens (m.isoText mark) = m.isoTokens mark := by
  have hnull : '\x00' ∉ (m.isoTokens mark).flatten := by
    rw [Moment.flatten_isoTokens h.minutes]
    exact fun hmem => nomatch isIsoChar_of_mem_isoText h hmark _ hmem
  rw [← Moment.flatten_isoTokens h.minutes, tokens_flatten (areApart_isoTokens hmark) hnull]

end Tokens

end DateText
end FindQuery
