import FindQuery.DateText.NumberStep
import FindQuery.DateText.ZoneStep

/-! The reading of a date text from left to right. -/

namespace FindQuery.DateText

namespace Findings

def monthStep [Host] (f : Findings) (m : Nat) (rest : List Token) : Step :=
  Reading.ofOption do
    let g ← f.figures.push? m .month
    match rest with
    | [] => return ({ f with figures := g }, 0)
    | u :: more =>
      if u = ['-'] ∨ u = ['/'] then
        let second ← more.head?
        let g ← g.pushDigits? second .unknown
        match more with
        | _ :: next :: more =>
          if next = u then
            let third ← more.head?
            let g ← g.pushDigits? third .unknown
            return ({ f with figures := g }, 4)
          else return ({ f with figures := g }, 2)
        | _ => return ({ f with figures := g }, 2)
      else match more with
        | v :: w :: year :: _ =>
          if u = [' '] ∧ w = [' '] ∧ isOf v then
            if year.all Text.isDigit then
              let y ← Numeral.read? year
              let g ← g.pushFullYear? (fullYear y false)
              return ({ f with figures := g }, 4)
            else return ({ f with figures := g }, 4)
          else return ({ f with figures := g }, 0)
        | _ => return ({ f with figures := g }, 0)

def halfDayStep (f : Findings) (half : HalfDay) : Step := do
  let hour ← Reading.ofOption f.hour
  if hour ≤ 12 then return ({ f with hour := some (half.adjust hour) }, 0)
  else throw .noDate

def wordStep [Host] (f : Findings) (t : Token) (rest : List Token) : Step :=
  match weekday? t, month? t, HalfDay.ofToken? t with
  | some w, _, _ => .ok ({ f with weekday := some w }, 0)
  | none, some m, _ => f.monthStep m rest
  | none, none, some half => f.halfDayStep half
  | none, none, none =>
    if f.zoneOffset.isNone ∧ f.awaitsZone t then f.zoneNameStep t rest
    else if f.hour.isSome ∧ (t = ['+'] ∨ t = ['-']) then
      { f with signTurned := false }.offsetStep (xor (t = ['-']) f.signTurned) rest
    else if isFiller t then .ok (f, 0)
    else .error .noDate

def step [Host] (f : Findings) (before : List Token) (t : Token) (rest : List Token) : Step :=
  match Amount.ofToken? t with
  | some a => f.numberStep before t a rest
  | none => if isNonfiniteWord t then .error .noDate else f.wordStep t rest

def scan [Host] (f : Findings) (before : List Token) : Nat → List Token → Reading Findings
  | _, [] => .ok f
  | taken + 1, t :: rest => f.scan (t :: before) taken rest
  | 0, t :: rest => do
    let (f', taken) ← f.step before t rest
    f'.scan (t :: before) taken rest

end Findings

def findings [Host] (s : Text) : Reading Findings := ({} : Findings).scan [] 0 (tokens s)

end FindQuery.DateText
