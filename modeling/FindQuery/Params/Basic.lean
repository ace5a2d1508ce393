import FindQuery.Entries

/-! Request parameters: keys in the order in which they were first seen, each with its values. -/

namespace FindQuery

abbrev Params := Entries (List Text)

namespace Params

def add (params : Params) (key value : Text) : Params :=
  params.put key ((params.get? key).getD [] ++ [value])

def ofPairs (pairs : List (Text × Text)) : Params :=
  pairs.foldl (fun params pair => params.add pair.1 pair.2) []

def first (params : Params) (key : Text) : Text :=
  match params.get? key with
  | some (value :: _) => value
  | _ => []

end Params
end FindQuery
