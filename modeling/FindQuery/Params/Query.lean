import FindQuery.Params.Basic
import FindQuery.Params.Escape
import FindQuery.Text.Quoted

/-! Query strings: pairs of key and value parted by `&`. -/

namespace FindQuery

inductive QueryError
  | badEscape (shown : Text)
  | semicolon
  | notUtf8 (fault : Utf8.Fault)
deriving DecidableEq

def QueryError.reason : QueryError → Text
  | .badEscape shown => "invalid percent escape ".toList ++ Text.quoted shown
  | .semicolon => "invalid semicolon separator".toList
  | .notUtf8 fault => "escape is not valid UTF-8 (".toList ++ fault.message ++ [')']

def QueryError.message (e : QueryError) : Text := "Invalid query string: ".toList ++ e.reason

namespace Query

def plusToSpace (s : Text) : Text := s.map fun c => if c = '+' then ' ' else c

def component (s : Text) : Except QueryError Text :=
  (Escape.decode (plusToSpace s)).mapError .notUtf8

def pair (segment : Text) : Except QueryError (Text × Text) := do
  let (key, value?) := Text.cutAt '=' segment
  let key ← component key
  let value ← component (value?.getD [])
  return (key, value)

def pairs : List Text → Except QueryError (List (Text × Text))
  | [] => .ok []
  | segment :: rest => do
    let p ← pair segment
    let ps ← pairs rest
    return p :: ps

def segments (query : Text) : List Text := (Text.splitOn '&' query).filter (· ≠ [])

/-- Decodes a query string. Malformed escapes are refused before semicolons, and these before bytes
that are not UTF-8. -/
def parse (query : Text) : Except QueryError Params :=
  match Escape.malformed? query with
  | some shown => .error (.badEscape shown)
  | none =>
    if ';' ∈ query then .error .semicolon
    else (pairs (segments query)).map Params.ofPairs

end Query
end FindQuery
