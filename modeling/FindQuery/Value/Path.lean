import FindQuery.Value.Basic
import FindQuery.Text.Quoted

/-! Changes deep inside a value, at the end of a path of keys and positions. -/

namespace FindQuery

inductive PathStep
  | key (k : Text)
  | position (i : Int)
deriving DecidableEq

def elementAt? {α : Type} (l : List α) (i : Int) : Option (Nat × α) :=
  let place := if i < 0 then i + l.length else i
  if place < 0 then none else (l[place.toNat]?).map (place.toNat, ·)

inductive PathError
  | noKey (step : PathStep)
  | pastEnd (value : Value)
  | noParts (value : Value)
  | notAList (value : Value)
  | notADocument (value : Value)
deriving DecidableEq

def PathError.wrongIndexText : Text := "list indices must be integers or slices, not str".toList

def PathError.message : PathError → Text
  | .noKey (.key k) => Text.quoted k
  | .noKey (.position i) => Numeral.ofInt i
  | .pastEnd (.text _) => "string index out of range".toList
  | .pastEnd _ => "list index out of range".toList
  | .noParts (.list _) | .notADocument (.list _) => wrongIndexText
  | .noParts (.text _) => "string indices must be integers, not 'str'".toList
  | .noParts v => '\'' :: v.qualifiedTypeName ++ "' object is not subscriptable".toList
  | .notAList v => '\'' :: v.qualifiedTypeName ++ "' object has no attribute 'append'".toList
  | .notADocument v =>
    '\'' :: v.qualifiedTypeName ++ "' object does not support item assignment".toList

namespace Value

/-- Changes the part at the end of a path. The parts of a text are its characters; a change of them
leaves the text as it is. -/
def changeAt (change : Value → Except PathError Value) (v : Value) (path : List PathStep) :
    Except PathError Value :=
  match path, v with
  | [], v => change v
  | .key k :: path, .document es =>
    match Entries.get? es k with
    | none => .error (.noKey (.key k))
    | some part => (changeAt change part path).map fun part => .document (Entries.put es k part)
  | .position i :: path, .list items =>
    match elementAt? items i with
    | none => .error (.pastEnd (.list items))
    | some (place, part) => (changeAt change part path).map fun part => .list (items.set place part)
  | .position i :: path, .text s =>
    match elementAt? s i with
    | none => .error (.pastEnd (.text s))
    | some (_, c) => (changeAt change (.text [c]) path).map fun _ => .text s
  | .position i :: _, .document _ => .error (.noKey (.position i))
  | _ :: _, v => .error (.noParts v)

def appendAt (v : Value) (path : List PathStep) (item : Value) : Except PathError Value :=
  changeAt (fun
    | .list items => .ok (.list (items ++ [item]))
    | part => .error (.notAList part)) v path

def putAt (v : Value) (path : List PathStep) (key : Text) (value : Value) :
    Except PathError Value :=
  changeAt (fun
    | .document es => .ok (.document (Entries.put es key value))
    | part => .error (.notADocument part)) v path

end Value
end FindQuery
