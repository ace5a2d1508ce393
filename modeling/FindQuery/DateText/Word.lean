import FindQuery.DateText.Token

/-! The words of a date text. Letter case is ignored, save in zone names. -/

namespace FindQuery.DateText

def placeOf? (word : Text) : List (List String) → Option Nat
  | [] => none
  | group :: groups =>
    if group.any (·.toList = word) then some 0 else (placeOf? word groups).map (· + 1)

def weekdayNames : List (List String) :=
  [["mon", "monday"], ["tue", "tuesday"], ["wed", "wednesday"], ["thu", "thursday"],
    ["fri", "friday"], ["sat", "saturday"], ["sun", "sunday"]]

def monthNames : List (List String) :=
  [["jan", "january"], ["feb", "february"], ["mar", "march"], ["apr", "april"], ["may"],
    ["jun", "june"], ["jul", "july"], ["aug", "august"], ["sep", "sept", "september"],
    ["oct", "october"], ["nov", "november"], ["dec", "december"]]

def weekday? (t : Token) : Option Nat := placeOf? (Text.lowerAscii t) weekdayNames

def month? (t : Token) : Option Nat := (placeOf? (Text.lowerAscii t) monthNames).map (· + 1)

inductive ClockUnit
  | hour
  | minute
  | second
deriving DecidableEq

def ClockUnit.ofToken? (t : Token) : Option ClockUnit :=
  match placeOf? (Text.lowerAscii t)
    [["h", "hour", "hours"], ["m", "minute", "minutes"], ["s", "second", "seconds"]] with
  | some 0 => some .hour
  | some 1 => some .minute
  | some 2 => some .second
  | _ => none

def ClockUnit.smaller? : ClockUnit → Option ClockUnit
  | .hour => some .minute
  | .minute => some .second
  | .second => none

inductive HalfDay
  | morning
  | afternoon
deriving DecidableEq

def HalfDay.ofToken? (t : Token) : Option HalfDay :=
  match placeOf? (Text.lowerAscii t) [["am", "a"], ["pm", "p"]] with
  | some 0 => some .morning
  | some 1 => some .afternoon
  | _ => none

def HalfDay.adjust (half : HalfDay) (hour : Nat) : Nat :=
  match half with
  | .morning => if hour = 12 then 0 else hour
  | .afternoon => if hour < 12 then hour + 12 else hour

def isFiller (t : Token) : Bool :=
  (placeOf? (Text.lowerAscii t)
    [[" ", ".", ",", ";", "-", "/", "'", "at", "on", "and", "ad", "m", "t", "of",
      "st", "nd", "rd", "th"]]).isSome

def isOf (t : Token) : Bool := Text.lowerAscii t = "of".toList

def isUniversalZone (t : Token) : Bool :=
  (placeOf? (Text.lowerAscii t) [["utc", "gmt", "z"]]).isSome

def isZoneName (t : Token) : Bool :=
  t.length ≤ 5 && (t.all (fun c => 'A' ≤ c && c ≤ 'Z') || t = ['z'])

def isNonfiniteWord (t : Token) : Bool :=
  (placeOf? (Text.lowerAscii t) [["nan", "inf", "infinity"]]).isSome

end FindQuery.DateText
