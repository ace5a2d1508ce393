import FindQuery.DateText.Findings

/-! Names of zones and offsets from universal time. -/

namespace FindQuery.DateText.Findings

def awaitsZone (f : Findings) (t : Token) : Bool :=
  f.hour.isSome && f.zoneName.isNone && isZoneName t

/-- Reads the name of a zone. A sign behind it gives the way from local to universal time, so it
counts the other way, and then the name of universal time says nothing. -/
def zoneNameStep (f : Findings) (t : Token) (rest : List Token) : Step :=
  let signed := match rest with
    | u :: _ => u = ['+'] || u = ['-']
    | [] => false
  if signed then
    .ok ({ f with
      zoneName := if isUniversalZone t then none else some t
      zoneOffset := none
      signTurned := true }, 0)
  else
    .ok ({ f with zoneName := some t, zoneOffset := if t = ['z'] then some 0 else none }, 0)

def bracketedZone? (f : Findings) : List Token → Option Token
  | u :: ['('] :: name :: [')'] :: _ =>
    if isFiller u ∧ 3 ≤ name.length ∧ f.awaitsZone name then some name else none
  | _ => none

def offsetParts? : List Token → Option (Nat × Nat × Nat)
  | [] => none
  | t :: rest =>
    if t.length = 4 then do
      let hours ← Numeral.read? (t.take 2)
      let minutes ← Numeral.read? (t.drop 2)
      return (hours, minutes, 1)
    else if rest.head? = some [':'] then do
      let hours ← Numeral.read? t
      let minutes ← (rest.drop 1).head?.bind Numeral.read?
      return (hours, minutes, 3)
    else if t.length ≤ 2 then do
      let hours ← Numeral.read? t
      return (hours, 0, 1)
    else none

def offsetStep (f : Findings) (west : Bool) (rest : List Token) : Step := do
  let (hours, minutes, taken) ← Reading.ofOption (offsetParts? rest)
  let f := { f with zoneOffset := some (Numeral.signed west (hours * 3600 + minutes * 60)) }
  match f.bracketedZone? (rest.drop taken) with
  | some name => return ({ f with zoneName := some name }, taken + 4)
  | none => return (f, taken)

end FindQuery.DateText.Findings
