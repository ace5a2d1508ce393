import FindQuery.Proofs.DateText.Complete
import FindQuery.Proofs.DateText.IsoTokens
import FindQuery.Proofs.Text

/-! How ISO texts are read. -/

namespace FindQuery.DateText
open Numeral (AreDigits padded)

section Words
variable {c : Char} {t : Token} {groups : List (List String)}

theorem placeOf?_eq_none (h : ∀ group ∈ groups, ∀ name ∈ group, name.toList ≠ t) :
    placeOf? t groups = none := by
  induction groups with
  | nil => rfl
  | cons group groups ih =>
    obtain ⟨hgroup, hgroups⟩ := List.forall_mem_cons.1 h
    have hany : group.any (·.toList = t) = false := by
      rw [List.any_eq_false]
      intro name hname
      rw [decide_eq_true_eq]
      exact hgroup name hname
    rw [placeOf?, hany, if_neg Bool.false_ne_true, ih hgroups]
    rfl

theorem placeOf?_of_isDigit (hc : c ∈ t) (hdigit : c.isDigit = true)
    (h : ∀ group ∈ groups, ∀ name ∈ group, name.toList.any Char.isDigit = false) :
    placeOf? (Text.lowerAscii t) groups = none := by
  refine placeOf?_eq_none fun group hgroup name hname heq => ?_
  have hlower := Numeral.mem_lowerAscii_of_isDigit hc hdigit
  exact List.any_eq_false.1 (h group hgroup name hname) c (heq ▸ hlower) hdigit

end Words

section Two
variable {n : Nat}

theorem length_two (h : n < 10 ^ 2) : (padded 2 n).length = 2 := Numeral.length_padded (by decide) h

theorem read?_two (h : n < 10 ^ 2) : Numeral.read? (padded 2 n) = some n :=
  Numeral.read?_padded (by decide) (by decide) h

end Two

namespace Amount

theorem decimals?_of_areDigits {s : Text} (h : AreDigits s) :
    decimals? s = some (s.map (·.toNat - 48)) := by
  induction s with
  | nil => rfl
  | cons c rest ih =>
    obtain ⟨hc, hrest⟩ := List.forall_mem_cons.1 h
    rw [decimals?] at ih ⊢
    rw [List.mapM_cons, Numeral.decimalValue?_of_isDigit hc, ih hrest]
    rfl

theorem ofToken?_padded (width n : Nat) : ofToken? (padded width n) = some ⟨n, []⟩ := by
  have hdigits := Numeral.areDigits_padded width n
  have hcut : Text.cutAt '.' (padded width n) = (padded width n, none) :=
    Text.cutAt_of_not_mem (hdigits.not_mem rfl)
  have hvalue : Numeral.ofDigits 10 ((padded width n).map (·.toNat - 48)) = n :=
    (Numeral.ofDigits_eq 10 _).trans Numeral.spelled_padded
  rw [ofToken?, hcut]
  simp only [Numeral.padded_ne_nil width n, if_false, decimals?_of_areDigits hdigits, Option.map_some,
    hvalue]

theorem readSixtieths_of_lt {n : Nat} (h : n < 10 ^ 2) : (⟨n, []⟩ : Amount).readSixtieths = .ok none := by
  have hcount : Numeral.digitCount n ≤ 2 := (Nat.length_toDigits_le_iff (by decide) (by decide)).2 h
  have hshort : ¬ significantDigits < Numeral.digitCount n := by
    rw [significantDigits]
    omega
  rw [readSixtieths, sixtieths?, if_neg hshort]
  rfl

end Amount

theorem seconds?_padded {second : Nat} (h : second < 10 ^ 2) :
    seconds? (padded 2 second) = some (second, 0) := by
  have hcut : Text.cutAt '.' (padded 2 second) = (padded 2 second, none) :=
    Text.cutAt_of_not_mem ((Numeral.areDigits_padded 2 second).not_mem rfl)
  simp only [seconds?, hcut, read?_two h, Option.map_some]

theorem seconds?_pointed {second microsecond : Nat} (h : second < 10 ^ 2) (h' : microsecond < 10 ^ 6) :
    seconds? (padded 2 second ++ '.' :: padded 6 microsecond) = some (second, microsecond) := by
  have hcut : Text.cutAt '.' (padded 2 second ++ '.' :: padded 6 microsecond) =
      (padded 2 second, some (padded 6 microsecond)) :=
    Text.cutAt_append ((Numeral.areDigits_padded 2 second).not_mem rfl) _
  have hlength : (padded 6 microsecond).length = 6 := Numeral.length_padded (by decide) h'
  have hread : Numeral.read? (padded 6 microsecond) = some microsecond :=
    Numeral.read?_padded (by decide) (by decide) h'
  have htake : (padded 6 microsecond ++ List.replicate (6 - (padded 6 microsecond).length) '0').take 6 =
      padded 6 microsecond := by
    rw [List.take_append_of_le_length hlength.ge, List.take_of_length_le hlength.le]
  simp only [seconds?, hcut, read?_two h, htake, hread, Option.bind_eq_bind, Option.bind_some]
  rfl

theorem seconds?_secondsToken {m : Moment} (h : m.clock.Valid) :
    seconds? m.secondsToken = some (m.clock.second, m.clock.microsecond) := by
  obtain ⟨-, -, hsecond, hmicrosecond⟩ := h
  unfold Moment.secondsToken
  split
  · next hzero =>
    rw [List.append_nil, hzero]
    exact seconds?_padded (by omega)
  · exact seconds?_pointed (by omega) (by omega)

namespace Figures
variable {f : Figures} {n : Nat}

theorem pushDigits?_year (hf : f.yearAt = none) (hn : n < 10 ^ 4) :
    f.pushDigits? (padded 4 n) .unknown =
      some { f with values := f.values ++ [n], yearAt := some f.count, fullYear := true } := by
  have hread : Numeral.read? (padded 4 n) = some n := Numeral.read?_padded (by decide) (by decide) hn
  have hlength : (padded 4 n).length = 4 := Numeral.length_padded (by decide) hn
  rw [pushDigits?, hread]
  simp [hlength, pushFullYear?, push?, hf, count]

theorem pushDigits?_two (hn : n < 10 ^ 2) :
    f.pushDigits? (padded 2 n) .unknown = some { f with values := f.values ++ [n] } := by
  rw [pushDigits?, read?_two hn]
  simp [length_two hn, push?]

end Figures

namespace Findings
variable {f g : Findings} {before rest : List Token} {t : Token} {taken : Nat}

theorem scan_step [Host] (h : f.step before t rest = .ok (g, taken)) :
    f.scan before 0 (t :: rest) = g.scan (t :: before) taken rest := by
  rw [scan, h]
  rfl

theorem scan_taken [Host] (read : List Token) :
    f.scan before read.length (read ++ rest) = f.scan (read.reverse ++ before) 0 rest := by
  induction read generalizing before with
  | nil => rfl
  | cons t read ih =>
    rw [List.length_cons, List.cons_append, scan, ih, List.reverse_cons, List.append_assoc,
      List.singleton_append]

theorem step_padded [Host] (width n : Nat) : f.step before (padded width n) rest =
    f.numberStep before (padded width n) ⟨n, []⟩ rest := by
  rw [step, Amount.ofToken?_padded]

theorem placeOf?_padded (width n : Nat) {groups : List (List String)}
    (h : ∀ group ∈ groups, ∀ name ∈ group, name.toList.any Char.isDigit = false) :
    placeOf? (Text.lowerAscii (padded width n)) groups = none := by
  obtain ⟨c, hc⟩ := List.exists_mem_of_ne_nil _ (Numeral.padded_ne_nil width n)
  exact placeOf?_of_isDigit hc (Numeral.areDigits_padded width n c hc) h

theorem isFiller_padded (width n : Nat) : isFiller (padded width n) = false := by
  rw [isFiller, placeOf?_padded width n (by decide)]
  rfl

theorem month?_padded (width n : Nat) : month? (padded width n) = none := by
  rw [month?, placeOf?_padded width n (by decide)]
  rfl

theorem numberStep_of_short {a : Amount} (hhour : f.isHourBehindDate t rest = false)
    (hlength : t.length < 6) (hunit : unitOf? before rest = none) :
    f.numberStep before t a rest = f.contextStep t a rest := by
  have hsix : isSixDigits t = false := by
    rw [isSixDigits, decide_eq_false hlength.ne, decide_eq_false (Nat.not_lt.2 hlength.le)]
    rfl
  have hlong : ¬ (t.length = 8 ∨ t.length = 12 ∨ t.length = 14) := by omega
  simp only [numberStep, hhour, hsix, if_neg hlong, hunit, Bool.false_eq_true, if_false]

theorem separatedStep_three {year month day : Nat} (hyear : year < 10 ^ 4) (hmonth : month < 10 ^ 2)
    (hday : day < 10 ^ 2) (hf : f.figures = {}) :
    f.separatedStep (padded 4 year) ['-'] (padded 2 month :: ['-'] :: padded 2 day :: rest) =
      .ok ({ f with figures := ⟨[year, month, day], some 0, none, true⟩ }, 4) := by
  have hdigits : (padded 2 month).all Text.isDigit = true :=
    List.all_eq_true.2 fun c hc => isDigit_of_isDigit (Numeral.areDigits_padded 2 month c hc)
  rw [separatedStep, hf, Figures.pushDigits?_year rfl hyear]
  simp only [Option.bind_eq_bind, Option.bind_some, isFiller_padded, hdigits, if_true,
    Figures.pushDigits?_two hmonth, Figures.pushDigits?_two hday, List.head?_cons, month?_padded,
    Bool.false_eq_true, if_false]
  rfl

theorem step_date [Host] {year month day : Nat} (hyear : year < 10 ^ 4) (hmonth : month < 10 ^ 2)
    (hday : day < 10 ^ 2) :
    ({} : Findings).step [] (padded 4 year)
      (['-'] :: padded 2 month :: ['-'] :: padded 2 day :: rest) =
        .ok ({ figures := ⟨[year, month, day], some 0, none, true⟩ }, 4) := by
  have hlength : (padded 4 year).length < 6 := by
    rw [Numeral.length_padded (by decide) hyear]
    decide
  rw [step_padded, numberStep_of_short rfl hlength rfl]
  exact separatedStep_three hyear hmonth hday rfl

theorem step_of_word [Host] (hamount : Amount.ofToken? t = none) (hnonfinite : isNonfiniteWord t = false)
    (hword : weekday? t = none ∧ month? t = none ∧ HalfDay.ofToken? t = none)
    (hzone : f.awaitsZone t = false) : f.step before t rest =
      if f.hour.isSome ∧ (t = ['+'] ∨ t = ['-']) then
        { f with signTurned := false }.offsetStep (xor (t = ['-']) f.signTurned) rest
      else if isFiller t then .ok (f, 0)
      else .error .noDate := by
  obtain ⟨hweekday, hmonth, hhalf⟩ := hword
  rw [step, hamount, hnonfinite, if_neg Bool.false_ne_true, wordStep, hweekday, hmonth, hhalf]
  simp only [hzone, Bool.false_eq_true, and_false, if_false]

theorem step_mark [Host] {mark : Char} (hmark : IsMark mark) (hhour : f.hour = none) :
    f.step before [mark] rest = .ok (f, 0) := by
  have hzone : f.awaitsZone [mark] = false := by
    rw [awaitsZone, hhour]
    rfl
  rcases hmark with rfl | rfl
  · rw [step_of_word (by decide) (by decide) (by decide) hzone, hhour]
    rfl
  · rw [step_of_word (by decide) (by decide) (by decide) hzone, hhour]
    rfl

theorem unitOf?_of_mark {mark : Char} (hmark : IsMark mark) :
    unitOf? ([mark] :: before) ([':'] :: rest) = none := by
  rcases hmark with rfl | rfl
  · rfl
  · rfl

theorem clockStep_of_seconds {hour minute second microsecond : Nat} {seconds : Token}
    (hminute : minute < 10 ^ 2) (hseconds : seconds? seconds = some (second, microsecond)) :
    f.clockStep ⟨hour, []⟩ (padded 2 minute) ([':'] :: seconds :: rest) =
      .ok ({ f with hour := some hour, minute := some minute, second := some second,
                    microsecond := some microsecond }, 4) := by
  rw [clockStep, Amount.ofToken?_padded]
  show (Amount.readSixtieths ⟨minute, []⟩ >>= _) = _
  rw [Amount.readSixtieths_of_lt hminute]
  show (Reading.ofOption (seconds? seconds) >>= _) = _
  rw [hseconds]
  rfl

theorem step_time [Host] {mark : Char} {hour minute second microsecond : Nat} {seconds : Token}
    (hmark : IsMark mark) (hhour : hour < 10 ^ 2) (hminute : minute < 10 ^ 2)
    (hseconds : seconds? seconds = some (second, microsecond)) :
    f.step ([mark] :: before) (padded 2 hour)
      ([':'] :: padded 2 minute :: [':'] :: seconds :: rest) =
        .ok ({ f with hour := some hour, minute := some minute, second := some second,
                      microsecond := some microsecond }, 4) := by
  have hlength : (padded 2 hour).length < 6 := by
    rw [length_two hhour]
    decide
  have hcolon : f.isHourBehindDate (padded 2 hour)
      ([':'] :: padded 2 minute :: [':'] :: seconds :: rest) = false := by
    simp [isHourBehindDate]
  rw [step_padded, numberStep_of_short hcolon hlength (unitOf?_of_mark hmark)]
  show f.clockStep ⟨hour, []⟩ (padded 2 minute) ([':'] :: seconds :: rest) = _
  exact clockStep_of_seconds hminute hseconds

theorem offsetParts?_padded {hours minutes : Nat} (hhours : hours < 10 ^ 2)
    (hminutes : minutes < 10 ^ 2) :
    offsetParts? [padded 2 hours, [':'], padded 2 minutes] = some (hours, minutes, 3) := by
  simp [offsetParts?, length_two hhours, read?_two hhours, read?_two hminutes]

theorem offsetStep_padded {west : Bool} {hours minutes : Nat} (hhours : hours < 10 ^ 2)
    (hminutes : minutes < 10 ^ 2) :
    f.offsetStep west [padded 2 hours, [':'], padded 2 minutes] =
      .ok ({ f with zoneOffset := some (Numeral.signed west (hours * 3600 + minutes * 60)) }, 3) := by
  rw [offsetStep, offsetParts?_padded hhours hminutes]
  rfl

theorem step_offset [Host] {west : Bool} {hours minutes : Nat} (hhour : f.hour.isSome = true)
    (hturned : f.signTurned = false) (hhours : hours < 10 ^ 2) (hminutes : minutes < 10 ^ 2) :
    f.step before [if west then '-' else '+'] [padded 2 hours, [':'], padded 2 minutes] =
      .ok ({ f with zoneOffset := some (Numeral.signed west (hours * 3600 + minutes * 60)) }, 3) := by
  have hkept : { f with signTurned := false } = f := by
    rw [← hturned]
  cases west with
  | true =>
    have hzone : f.awaitsZone ['-'] = false := Bool.and_false _
    have hwest : xor (decide (['-'] = ['-'])) f.signTurned = true := by
      rw [hturned]
      rfl
    show f.step before ['-'] _ = _
    rw [step_of_word (by decide) (by decide) (by decide) hzone, if_pos ⟨hhour, .inr rfl⟩, hkept, hwest]
    exact offsetStep_padded hhours hminutes
  | false =>
    have hzone : f.awaitsZone ['+'] = false := Bool.and_false _
    have heast : xor (decide (['+'] = ['-'])) f.signTurned = false := by
      rw [hturned]
      rfl
    show f.step before ['+'] _ = _
    rw [step_of_word (by decide) (by decide) (by decide) hzone, if_pos ⟨hhour, .inl rfl⟩, hkept, heast]
    exact offsetStep_padded hhours hminutes

def ofIsoDate (m : Moment) : Findings :=
  { figures := ⟨[m.date.year, m.date.month, m.date.day], some 0, none, true⟩ }

def ofIsoTime (m : Moment) : Findings :=
  { ofIsoDate m with
    hour := some m.clock.hour
    minute := some m.clock.minute
    second := some m.clock.second
    microsecond := some m.clock.microsecond }

def ofIso (m : Moment) : Findings := { ofIsoTime m with zoneOffset := m.offset }

section Iso
variable {m : Moment} {mark : Char}

theorem signed_minutes {seconds : Int} (h : seconds % 60 = 0) :
    Numeral.signed (seconds < 0) (seconds.natAbs / 3600 * 3600 + seconds.natAbs / 60 % 60 * 60) =
      seconds := by
  rw [Numeral.signed]
  split
  · next hneg =>
    have hneg := of_decide_eq_true hneg
    omega
  · next hpos =>
    have hpos : ¬ seconds < 0 := fun hneg => hpos (decide_eq_true hneg)
    omega

theorem scan_zoneTokens [Host] (h : m.IsIso) : (ofIsoTime m).scan before 0 m.zoneTokens = .ok (ofIso m) := by
  unfold Moment.zoneTokens
  cases hoffset : m.offset with
  | none =>
    rw [ofIso, hoffset]
    rfl
  | some seconds =>
    obtain ⟨zone, hzone, rfl⟩ := Option.map_eq_some_iff.1 hoffset
    obtain ⟨hwest, heast⟩ := h.zone zone hzone
    have hminutes := h.minutes zone.offset hoffset
    have hhours : zone.offset.natAbs / 3600 < 10 ^ 2 := by omega
    have hless : zone.offset.natAbs / 60 % 60 < 10 ^ 2 := by omega
    have hsign : (if zone.offset < 0 then '-' else '+') =
        if decide (zone.offset < 0) then '-' else '+' := by
      simp only [decide_eq_true_eq]
    rw [ofIso, hoffset]
    show (ofIsoTime m).scan before 0 (Moment.offsetTokens zone.offset) = _
    rw [Moment.offsetTokens, hsign, scan_step (step_offset rfl rfl hhours hless),
      signed_minutes hminutes]
    rfl

theorem scan_timeTokens [Host] (h : m.IsIso) (hmark : IsMark mark) :
    (ofIsoDate m).scan ([mark] :: before) 0 m.timeTokens = .ok (ofIso m) := by
  obtain ⟨hhour, hminute, -, -⟩ := h.clock
  have hhour : m.clock.hour < 10 ^ 2 := by omega
  have hminute : m.clock.minute < 10 ^ 2 := by omega
  rw [Moment.timeTokens, scan_step (step_time hmark hhour hminute (seconds?_secondsToken h.clock))]
  exact (scan_taken [[':'], padded 2 m.clock.minute, [':'], m.secondsToken]).trans (scan_zoneTokens h)

theorem findings_isoText [Host] (h : m.IsIso) (hmark : IsMark mark) :
    findings (m.isoText mark) = .ok (ofIso m) := by
  have hlast := Date.daysInMonth_le m.date.year m.date.month
  obtain ⟨-, hmonth⟩ := Date.month_mem_of_valid h.date
  obtain ⟨-, hyear, -, hday⟩ := h.date
  have hyear : m.date.year < 10 ^ 4 := by omega
  have hmonth : m.date.month < 10 ^ 2 := by omega
  have hday : m.date.day < 10 ^ 2 := by omega
  rw [findings, tokens_isoText h hmark, Moment.isoTokens, scan_step (step_date hyear hmonth hday)]
  refine (scan_taken [['-'], padded 2 m.date.month, ['-'], padded 2 m.date.day]).trans ?_
  show (ofIsoDate m).scan _ 0 ([mark] :: m.timeTokens) = _
  rw [scan_step (step_mark hmark rfl)]
  exact scan_timeTokens h hmark

theorem dateParts?_ofIso [Host] :
    (ofIso m).dateParts? = some ⟨some m.date.year, some m.date.month, some m.date.day⟩ := by
  have hresolve : (ofIso m).figures.resolve? =
      some ⟨some m.date.year, some m.date.month, some m.date.day⟩ :=
    congrArg some (if_pos (.inr rfl))
  have hfull : fullYear m.date.year true = m.date.year := if_pos (.inr rfl)
  rw [dateParts?, hresolve]
  show some (Figures.Parts.mk (some (fullYear m.date.year true)) _ _) = _
  rw [hfull]

theorem zone_ofIso [Host] : (ofIso m).zone = m.unnamed.zone := by
  show (m.offset.map fun seconds => if seconds = 0 then Zone.universal else ⟨seconds, none⟩) =
    m.offset.map (⟨·, none⟩)
  cases m.offset with
  | none => rfl
  | some seconds =>
    rw [Option.map_some, Option.map_some]
    split
    · next hzero => rw [hzero]; rfl
    · rfl

theorem moment?_ofIso [Host] (h : m.IsIso) (default : Date) :
    (ofIso m).moment? default = some m.unnamed := by
  have hdate : (ofIso m).date? default = some m.date := by
    rw [date?_of_parts dateParts?_ofIso]
    exact if_pos h.date
  refine moment?_eq_some.2 ⟨h.clock, ?_, hdate, rfl, zone_ofIso⟩
  rw [zone_ofIso]
  intro unnamed hunnamed
  obtain ⟨seconds, hoffset, rfl⟩ := Option.map_eq_some_iff.1 hunnamed
  obtain ⟨zone, hzone, rfl⟩ := Option.map_eq_some_iff.1 hoffset
  obtain ⟨hwest, heast⟩ := h.zone zone hzone
  show -maxOffsetDays ≤ zone.offset / 86400 ∧ zone.offset / 86400 ≤ maxOffsetDays
  unfold maxOffsetDays
  omega

end Iso

end Findings

section Complete
variable {m : Moment} {mark : Char}

theorem exists_digit_isoText (m : Moment) (mark : Char) :
    ∃ c ∈ m.isoText mark, c.isDigit = true := by
  obtain ⟨c, hc⟩ := List.exists_mem_of_ne_nil _ (Numeral.padded_ne_nil 4 m.date.year)
  refine ⟨c, ?_, Numeral.areDigits_padded 4 _ c hc⟩
  simp only [Moment.isoText, Moment.dateText, List.mem_append, hc, true_or]

theorem complete_isoText [Host] (h : m.IsIso) (hmark : IsMark mark) :
    complete (m.isoText mark) = .ok (some m.unnamed) := by
  obtain ⟨c, hc, hdigit⟩ := exists_digit_isoText m mark
  have hdigits : hasAsciiDigit (m.isoText mark) = true := List.any_eq_true.2 ⟨c, hc, hdigit⟩
  have hread (default : Date) : read default (m.isoText mark) = .ok (some m.unnamed) :=
    read_eq_some.2 ⟨_, Findings.findings_isoText h hmark, Findings.moment?_ofIso h default⟩
  rw [complete, if_pos hdigits, hread, hread]
  exact congrArg Except.ok (agreed?_eq_some.2 ⟨rfl, _, rfl, rfl⟩)

end Complete

end FindQuery.DateText
