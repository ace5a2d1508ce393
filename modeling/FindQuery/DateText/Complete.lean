import FindQuery.DateText.Scan
import FindQuery.Calendar.Moment

/-! From the findings of a date text to a moment. The reading of dates follows dateutil 2.9.0. -/

namespace FindQuery.DateText

/-- What a text says about the zone. Universal time has no other name, and the zone of the machine is
known by its own, whatever offset stands beside it. -/
def Findings.zone [Host] (f : Findings) : Option Zone :=
  if f.zoneName.any isUniversalZone then some .universal
  else if f.zoneName.any Host.zoneNames.contains then some ⟨Host.zoneOffset, f.zoneName⟩
  else f.zoneOffset.map fun seconds =>
    if seconds = 0 then .universal else ⟨seconds, f.zoneName⟩

def maxOffsetDays : Int := 999999999

def OffsetInRange (seconds : Int) : Prop :=
  -maxOffsetDays ≤ seconds / 86400 ∧ seconds / 86400 ≤ maxOffsetDays

instance (seconds : Int) : Decidable (OffsetInRange seconds) :=
  inferInstanceAs (Decidable (_ ∧ _))

def Figures.Parts.fill (p : Figures.Parts) (default : Date) : Date :=
  let year := p.year.getD default.year
  let month := p.month.getD default.month
  ⟨year, month, p.day.getD (min default.day (Date.daysInMonth year month))⟩

def Findings.clock (f : Findings) : Clock :=
  ⟨f.hour.getD 0, f.minute.getD 0, f.second.getD 0, f.microsecond.getD 0⟩

def Findings.dateParts? [Host] (f : Findings) : Option Figures.Parts :=
  f.figures.resolve?.map fun p => { p with year := p.year.map (fullYear · f.figures.fullYear) }

def Findings.date? [Host] (f : Findings) (default : Date) : Option Date := do
  let parts ← f.dateParts?
  let date := parts.fill default
  if date.Valid then
    match f.weekday, parts.day with
    | some w, none => date.onWeekday? w
    | _, _ => some date
  else none

def Findings.moment? [Host] (f : Findings) (default : Date) : Option Moment := do
  if f.clock.Valid then
    let date ← f.date? default
    match f.zone with
    | none => some ⟨date, f.clock, none⟩
    | some zone => if OffsetInRange zone.offset then some ⟨date, f.clock, some zone⟩ else none
  else none

def read [Host] (default : Date) (s : Text) : Except PrecisionError (Option Moment) :=
  match findings s with
  | .ok f => .ok (f.moment? default)
  | .error .noDate => .ok none
  | .error (.precision cause) => .error cause

def probeDays : Date × Date := (⟨2000, 1, 1⟩, ⟨2001, 2, 2⟩)

def hasAsciiDigit (s : Text) : Bool := s.any fun c => '0' ≤ c && c ≤ '9'

def agreed? (first second : Option Moment) : Option Moment := do
  let a ← first
  let b ← second
  if a.wallTime = b.wallTime then some a else none

/-- Reads a date text that leaves nothing out, as far as two default days can tell. A text without
a digit is never read. -/
def complete [Host] (s : Text) : Except PrecisionError (Option Moment) :=
  if hasAsciiDigit s then do
    let first ← read probeDays.1 s
    let second ← read probeDays.2 s
    return agreed? first second
  else .ok none

end FindQuery.DateText
