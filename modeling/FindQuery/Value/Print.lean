import FindQuery.Value.Basic
import FindQuery.Binary64.Print
import FindQuery.Text.Quoted

/-! The text of a value inside a message. -/

namespace FindQuery

def Moment.print (m : Moment) : Text :=
  let c := m.clock
  let ending :=
    if c.microsecond ≠ 0 then [c.second, c.microsecond] else if c.second ≠ 0 then [c.second] else []
  let fields := [m.date.year, m.date.month, m.date.day, c.hour, c.minute] ++ ending
  "datetime.datetime(".toList ++ Text.joinWith ", ".toList (fields.map Numeral.ofNat) ++ [')']

def Pattern.print (p : Pattern) : Text :=
  "RegexMatch(pattern=".toList ++ Text.quoted p.source ++ ", options=".toList
    ++ Text.quoted p.options ++ [')']

namespace Value

mutual

def print : Value → Text
  | .null => "None".toList
  | .bool true => "True".toList
  | .bool false => "False".toList
  | .int n => Numeral.ofInt n
  | .float x => x.print
  | .text s => Text.quoted s
  | .moment m => m.print
  | .pattern p => p.print
  | .list items => '[' :: Text.joinWith ", ".toList (printAll items) ++ [']']
  | .document entries => '\x7b' :: Text.joinWith ", ".toList (printEntries entries) ++ ['\x7d']

def printAll : List Value → List Text
  | [] => []
  | v :: rest => print v :: printAll rest

def printEntries : List (Text × Value) → List Text
  | [] => []
  | (k, v) :: rest => (Text.quoted k ++ ": ".toList ++ print v) :: printEntries rest

end

mutual

def isWritable : Value → Bool
  | .int n => Numeral.isWritable n
  | .list items => areWritable items
  | .document entries => areEntriesWritable entries
  | _ => true

def areWritable : List Value → Bool
  | [] => true
  | v :: rest => isWritable v && areWritable rest

def areEntriesWritable : List (Text × Value) → Bool
  | [] => true
  | (_, v) :: rest => isWritable v && areEntriesWritable rest

end

def write (v : Value) : Except Numeral.DecimalError Text :=
  if v.isWritable then .ok v.print else .error .tooLargeToWrite

end Value
end FindQuery
