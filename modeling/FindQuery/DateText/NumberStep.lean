import FindQuery.DateText.Findings

/-! The meaning of a number in a date text, as its length and its neighbours tell. -/

namespace FindQuery.DateText.Findings

/-- The unit that a number belongs to, and how many tokens behind it name that unit. A unit in
front of the number is that of the number before. -/
def unitOf? (before rest : List Token) : Option (Option ClockUnit × Nat) :=
  let ahead := match rest with
    | t :: more =>
      match ClockUnit.ofToken? t with
      | some unit => some (some unit, 1)
      | none =>
        if t = [' '] then
          match more with
          | u :: _ => (ClockUnit.ofToken? u).map fun unit => (some unit, 2)
          | [] => none
        else none
    | [] => none
  let behind := match before with
    | t :: more =>
      match ClockUnit.ofToken? t with
      | some unit => some (unit.smaller?, 0)
      | none =>
        if t = [' '] ∧ rest = [] then
          match more with
          | u :: _ => (ClockUnit.ofToken? u).map fun unit => (unit.smaller?, 0)
          | [] => none
        else none
    | [] => none
  ahead.or behind

def clockStep (f : Findings) (a : Amount) (minutes : Token) (rest : List Token) : Step := do
  let m ← Reading.ofOption (Amount.ofToken? minutes)
  let second ← m.readSixtieths
  let f := { f with hour := some a.whole, minute := some m.whole, second }
  match rest with
  | [':'] :: seconds :: _ =>
    let (second, microsecond) ← Reading.ofOption (seconds? seconds)
    return ({ f with second := some second, microsecond := some microsecond }, 4)
  | _ => return (f, 2)

def separatedStep (f : Findings) (first separator : Token) (rest : List Token) : Step :=
  Reading.ofOption do
    let g ← f.figures.pushDigits? first .unknown
    match rest with
    | [] => return ({ f with figures := g }, 1)
    | second :: more =>
      if isFiller second then return ({ f with figures := g }, 1)
      let g ←
        if second.all Text.isDigit then g.pushDigits? second .unknown
        else (month? second).bind fun m => g.push? m .month
      match more with
      | [] => return ({ f with figures := g }, 2)
      | next :: more =>
        if next = separator then
          let third ← more.head?
          let g ← match month? third with
            | some m => g.push? m .month
            | none => g.pushDigits? third .unknown
          return ({ f with figures := g }, 4)
        else return ({ f with figures := g }, 2)

def loneStep (f : Findings) (a : Amount) (rest : List Token) : Step :=
  let half := match rest with
    | _ :: t :: _ => HalfDay.ofToken? t
    | _ => none
  match half with
  | some half => .ok ({ f with hour := some (half.adjust a.whole) }, 2)
  | none => Step.taking 1 (f.withFigures (f.figures.pushAmount? a))

def isHourBehindDate (f : Findings) (t : Token) (rest : List Token) : Bool :=
  f.figures.count = 3 && (t.length = 2 || t.length = 4) && f.hour.isNone &&
    match rest with
    | [] => true
    | u :: _ => u ≠ [':'] && (ClockUnit.ofToken? u).isNone

def isSixDigits (t : Token) : Bool :=
  t.length = 6 || (6 < t.length && t.findIdx? (· = '.') = some 6)

def isDateSeparator (t : Token) : Bool := t = ['-'] || t = ['/'] || t = ['.']

def dayStep (f : Findings) (a : Amount) : Step :=
  if f.figures.admitsDay a then Step.taking 0 (f.withFigures (f.figures.pushAmount? a))
  else .error .noDate

def contextStep (f : Findings) (t : Token) (a : Amount) (rest : List Token) : Step :=
  match rest with
  | [] => f.loneStep a rest
  | u :: more =>
    match decide (u = [':']), more with
    | true, minutes :: more => f.clockStep a minutes more
    | _, _ =>
      if isDateSeparator u then f.separatedStep t u more
      else if isFiller u then f.loneStep a rest
      else match HalfDay.ofToken? u with
        | some half =>
          if a.whole < 24 then .ok ({ f with hour := some (half.adjust a.whole) }, 1)
          else f.dayStep a
        | none => f.dayStep a

def numberStep (f : Findings) (before : List Token) (t : Token) (a : Amount) (rest : List Token) :
    Step :=
  if f.isHourBehindDate t rest then Step.taking 0 (f.assignHourDigits? t)
  else if isSixDigits t then
    Step.taking 0
      (if f.figures.values = [] ∧ '.' ∉ t then f.assignShortDate? t else f.assignCompactTime? t)
  else if t.length = 8 ∨ t.length = 12 ∨ t.length = 14 then Step.taking 0 (f.assignLongDate? t)
  else match unitOf? before rest with
    | some (some unit, taken) => (f.assignUnit unit t a).map fun f => (f, taken)
    | some (none, taken) => .ok (f, taken)
    | none => f.contextStep t a rest

end FindQuery.DateText.Findings
