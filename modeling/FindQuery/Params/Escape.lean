import FindQuery.Text.Utf8
import FindQuery.Numeral.Integer

/-! Percent escapes. -/

namespace FindQuery.Escape

inductive Piece
  | byte (n : Nat)
  | wide (c : Char)
deriving DecidableEq

def hexValue? (c : Char) : Option Nat := Numeral.digitValue? 16 c

def byte? (a b : Char) : Option Nat := do
  let high ← hexValue? a
  let low ← hexValue? b
  return high * 16 + low

/-- The first percent sign without two hexadecimal digits behind it, shown with at most two
characters that follow it. -/
def malformed? : Text → Option Text
  | [] => none
  | '%' :: a :: b :: rest =>
    if (byte? a b).isSome then malformed? (a :: b :: rest) else some ['%', a, b]
  | '%' :: rest => some ('%' :: rest)
  | _ :: rest => malformed? rest

def plainPiece (c : Char) : Piece := if c.toNat < 128 then .byte c.toNat else .wide c

def pieces : Text → List Piece
  | [] => []
  | '%' :: a :: b :: rest =>
    match byte? a b with
    | some n => .byte n :: pieces rest
    | none => plainPiece '%' :: pieces (a :: b :: rest)
  | c :: rest => plainPiece c :: pieces rest

def decodePieces : Utf8.State → List Piece → Except Utf8.Fault Text
  | state, [] => do
    state.close
    return []
  | state, .byte n :: rest => do
    let (c?, state) ← Utf8.step state n
    let s ← decodePieces state rest
    return c?.toList ++ s
  | state, .wide c :: rest => do
    state.close
    let s ← decodePieces .between rest
    return c :: s

def decode (s : Text) : Except Utf8.Fault Text := decodePieces .between (pieces s)

end FindQuery.Escape
