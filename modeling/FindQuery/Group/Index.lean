import FindQuery.Numeral.Decimal
import FindQuery.StableSort
import FindQuery.Text.Order

/-! The order of group indices: numbers by size, and then all other texts by code point. -/

namespace FindQuery.Group

inductive IndexKey
  | number (n : Nat)
  | word (s : Text)
deriving DecidableEq

/-- Reads an index. One that has digits alone has to be a decimal numeral. -/
def IndexKey.ofText (s : Text) : Except Numeral.DecimalError IndexKey :=
  if s ≠ [] ∧ s.all Text.isDigit then (Numeral.read s).map .number else .ok (.word s)

namespace IndexKey

def le : IndexKey → IndexKey → Bool
  | .number m, .number n => m ≤ n
  | .number _, .word _ => true
  | .word _, .number _ => false
  | .word s, .word t => Text.le s t

end IndexKey

def keyed : List Text → Except Numeral.DecimalError (List (IndexKey × Text))
  | [] => .ok []
  | s :: rest => do
    let k ← IndexKey.ofText s
    let others ← keyed rest
    return (k, s) :: others

def sortIndices (indices : List Text) : Except Numeral.DecimalError (List Text) :=
  (keyed indices).map fun ks => (stableSort (fun a b => a.1.le b.1) ks).map Prod.snd

theorem IndexKey.le_total (a b : IndexKey) : a.le b = true ∨ b.le a = true := by
  cases a <;> cases b <;> simp [le]
  · omega
  · exact Text.le_total _ _

theorem IndexKey.le_trans {a b c : IndexKey} (h : a.le b = true) (h' : b.le c = true) :
    a.le c = true := by
  cases a <;> cases b <;> cases c <;> simp_all [le]
  · omega
  · exact Text.le_trans h h'

end FindQuery.Group
