import FindQuery.Calendar.Date
import FindQuery.Numeral.Decimal

/-! Points in time as a wall clock shows them, with or without an offset from universal time. -/

namespace FindQuery

structure Clock where
  hour : Nat
  minute : Nat
  second : Nat
  microsecond : Nat
deriving DecidableEq

namespace Clock

def midnight : Clock := ⟨0, 0, 0, 0⟩

def Valid (c : Clock) : Prop :=
  c.hour < 24 ∧ c.minute < 60 ∧ c.second < 60 ∧ c.microsecond < 1000000

instance (c : Clock) : Decidable c.Valid := inferInstanceAs (Decidable (_ ∧ _))

end Clock

/-- A distance from universal time, under the name that a text gave it. -/
structure Zone where
  offset : Int
  name : Option Text := none
deriving DecidableEq

namespace Zone

def universal : Zone := ⟨0, none⟩

def Valid (z : Zone) : Prop := -86400 < z.offset ∧ z.offset < 86400

instance (z : Zone) : Decidable z.Valid := inferInstanceAs (Decidable (_ ∧ _))

end Zone

structure Moment where
  date : Date
  clock : Clock
  zone : Option Zone
deriving DecidableEq

structure ZoneError where
deriving DecidableEq

def ZoneError.message (_ : ZoneError) : Text :=
  "offset must be a timedelta strictly between ".toList
    ++ "-timedelta(hours=24) and timedelta(hours=24).".toList

abbrev Comparison := Except ZoneError Bool

namespace Moment

def offset (m : Moment) : Option Int := m.zone.map (·.offset)

def wallTime (m : Moment) : Nat :=
  ((m.date.ordinal * 86400 + m.clock.hour * 3600 + m.clock.minute * 60 + m.clock.second) * 1000000)
    + m.clock.microsecond

def universalTime? (m : Moment) : Option Int :=
  m.zone.map fun z => (m.wallTime : Int) - z.offset * 1000000

def HasValidZone (m : Moment) : Prop := ∀ z ∈ m.zone, z.Valid

instance (m : Moment) : Decidable m.HasValidZone :=
  match h : m.zone with
  | none => isTrue (by simp [HasValidZone, h])
  | some z => decidable_of_iff z.Valid (by simp [HasValidZone, h])

/-- Equality of points in time. Within one zone, or without any, the wall clock tells. Moments of
two zones are compared by universal time, and one with a zone is never equal to one without. -/
def same (a b : Moment) : Comparison :=
  if a.zone = b.zone then .ok (a.wallTime = b.wallTime)
  else if a.HasValidZone ∧ b.HasValidZone then
    .ok (match a.universalTime?, b.universalTime? with
      | some x, some y => x = y
      | _, _ => false)
  else .error ⟨⟩

def dateText (m : Moment) : Text :=
  Numeral.padded 4 m.date.year ++ '-' :: Numeral.padded 2 m.date.month
    ++ '-' :: Numeral.padded 2 m.date.day

def clockText (m : Moment) : Text :=
  Numeral.padded 2 m.clock.hour ++ ':' :: Numeral.padded 2 m.clock.minute
    ++ ':' :: Numeral.padded 2 m.clock.second

def microsecondText (m : Moment) : Text := '.' :: Numeral.padded 6 m.clock.microsecond

def offsetText (seconds : Int) : Text :=
  let n := seconds.natAbs
  let rest := if n % 60 = 0 then [] else ':' :: Numeral.padded 2 (n % 60)
  (if seconds < 0 then '-' else '+') :: Numeral.padded 2 (n / 3600)
    ++ ':' :: Numeral.padded 2 (n / 60 % 60) ++ rest

def isoText (mark : Char) (m : Moment) : Text :=
  m.dateText ++ mark :: m.clockText
    ++ (if m.clock.microsecond = 0 then [] else m.microsecondText)
    ++ (match m.offset with
      | none => []
      | some seconds => offsetText seconds)

theorem same_self (m : Moment) : m.same m = .ok true := by simp [same]

end Moment
end FindQuery
