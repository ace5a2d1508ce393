import FindQuery.DateText.Figures
import FindQuery.DateText.Host
import FindQuery.Numeral.Integer

/-! What a date text has said up to some token, and how digits and units add to it. -/

namespace FindQuery.DateText

structure Findings where
  figures : Figures := {}
  weekday : Option Nat := none
  hour : Option Nat := none
  minute : Option Nat := none
  second : Option Nat := none
  microsecond : Option Nat := none
  zoneName : Option Token := none
  zoneOffset : Option Int := none
  /-- The next sign counts the other way, since it follows a zone name. -/
  signTurned : Bool := false
deriving DecidableEq

abbrev Step := Reading (Findings × Nat)

def Step.taking (taken : Nat) (f : Option Findings) : Step :=
  (Reading.ofOption f).map fun f => (f, taken)

def fullYear [Host] (year : Nat) (complete : Bool) : Nat :=
  if 100 ≤ year ∨ complete then year
  else
    let inCentury := Host.year / 100 * 100 + year
    if Host.year + 50 ≤ inCentury then inCentury - 100
    else if inCentury + 50 < Host.year then inCentury + 100
    else inCentury

namespace Findings

def withFigures (f : Findings) (figures : Option Figures) : Option Findings :=
  figures.map fun g => { f with figures := g }

def assignUnit (f : Findings) (unit : ClockUnit) (t : Token) (a : Amount) : Reading Findings :=
  match unit with
  | .hour =>
    a.readSixtieths.map fun
      | none => { f with hour := some a.whole }
      | some minute => { f with hour := some a.whole, minute := some minute }
  | .minute => a.readSixtieths.map fun second => { f with minute := some a.whole, second }
  | .second =>
    Reading.ofOption do
      let (second, microsecond) ← seconds? t
      return { f with second := some second, microsecond := some microsecond }

def assignCompactTime? (f : Findings) (t : Token) : Option Findings := do
  let hour ← Numeral.read? (t.take 2)
  let minute ← Numeral.read? ((t.drop 2).take 2)
  let (second, microsecond) ← seconds? (t.drop 4)
  return { f with
    hour := some hour, minute := some minute, second := some second,
    microsecond := some microsecond }

def assignHourDigits? (f : Findings) (t : Token) : Option Findings := do
  let hour ← Numeral.read? (t.take 2)
  if t.length = 4 then
    let minute ← Numeral.read? (t.drop 2)
    return { f with hour := some hour, minute := some minute }
  else return { f with hour := some hour }

def assignShortDate? (f : Findings) (t : Token) : Option Findings :=
  f.withFigures do
    let g ← f.figures.pushDigits? (t.take 2) .unknown
    let g ← g.pushDigits? ((t.drop 2).take 2) .unknown
    g.pushDigits? (t.drop 4) .unknown

def assignLongDate? (f : Findings) (t : Token) : Option Findings := do
  let g ← f.figures.pushDigits? (t.take 4) .year
  let g ← g.pushDigits? ((t.drop 4).take 2) .unknown
  let g ← g.pushDigits? ((t.drop 6).take 2) .unknown
  let f := { f with figures := g }
  if t.length ≤ 8 then return f
  let hour ← Numeral.read? ((t.drop 8).take 2)
  let minute ← Numeral.read? ((t.drop 10).take 2)
  let f := { f with hour := some hour, minute := some minute }
  if t.length ≤ 12 then return f
  let second ← Numeral.read? (t.drop 12)
  return { f with second := some second }

end Findings
end FindQuery.DateText
