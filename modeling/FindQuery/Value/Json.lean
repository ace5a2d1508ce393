import FindQuery.Value.Print
import FindQuery.Text.JsonQuoted

/-! Values in the JSON format, in ASCII. Values that the format lacks are written as strings. -/

namespace FindQuery.Value

def jsonFloat (x : Binary64) : Text :=
  if x.IsNaN then "NaN".toList
  else if x.IsFinite then x.print
  else if x.negative then "-Infinity".toList
  else "Infinity".toList

mutual

def json : Value → Text
  | .null => "null".toList
  | .bool true => "true".toList
  | .bool false => "false".toList
  | .int n => Numeral.ofInt n
  | .float x => jsonFloat x
  | .text s => Text.jsonQuoted s
  | .moment m => Text.jsonQuoted (m.isoText ' ')
  | .pattern p => Text.jsonQuoted p.print
  | .list items => '[' :: Text.joinWith ", ".toList (jsonAll items) ++ [']']
  | .document entries => '\x7b' :: Text.joinWith ", ".toList (jsonEntries entries) ++ ['\x7d']

def jsonAll : List Value → List Text
  | [] => []
  | v :: rest => json v :: jsonAll rest

def jsonEntries : List (Text × Value) → List Text
  | [] => []
  | (k, v) :: rest => (Text.jsonQuoted k ++ ": ".toList ++ json v) :: jsonEntries rest

end

end FindQuery.Value
