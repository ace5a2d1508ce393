import FindQuery.DateText.Word

/-! What the reading of dates takes from the machine it runs on. -/

namespace FindQuery

/-- The year in which the machine runs, and the names and the offset of its zone, which has no summer
time. A zone that goes by a name of universal time keeps it. -/
class Host where
  year : Nat
  zoneNames : List Text
  zoneOffset : Int
  year_ge : 100 ≤ year
  zoneOffset_lt : -86400 < zoneOffset ∧ zoneOffset < 86400
  universal : zoneNames.any DateText.isUniversalZone = true → zoneOffset = 0

instance Host.standard : Host where
  year := 2026
  zoneNames := ["UTC".toList]
  zoneOffset := 0
  year_ge := by decide
  zoneOffset_lt := by decide
  universal := fun _ => rfl

def DateText.isKnownZone [Host] (t : Token) : Bool := isUniversalZone t || Host.zoneNames.contains t

end FindQuery
