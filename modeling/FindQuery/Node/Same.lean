import FindQuery.Node.Basic
import FindQuery.Value.Same

/-! Equality of expression trees: the same shape, operators and fields, and equal values. -/

namespace FindQuery.Node

mutual

def same : Node → Node → Comparison
  | .leaf o f v, .leaf p g w => if o = p ∧ f = g then v.same w else .ok false
  | .logical c as, .logical d bs => if c = d then sameAll as bs else .ok false
  | .filter as, .filter bs => sameAll as bs
  | .other v, .other w => v.same w
  | _, _ => .ok false

def sameAll : List Node → List Node → Comparison
  | [], [] => .ok true
  | a :: as, b :: bs => Comparison.and (same a b) (sameAll as bs)
  | _, _ => .ok false

end

def equal : Node → Node → Comparison
  | .other v, .other w => v.equal w
  | a, b => a.same b

mutual

def mark (payload : Nat) : Node → Node
  | .leaf operator field value => .leaf operator field (value.mark payload)
  | .logical connective children => .logical connective (markAll payload children)
  | .filter members => .filter (markAll payload members)
  | .other value => .other (value.mark payload)

def markAll (payload : Nat) : List Node → List Node
  | [] => []
  | node :: rest => mark payload node :: markAll payload rest

end

end FindQuery.Node
