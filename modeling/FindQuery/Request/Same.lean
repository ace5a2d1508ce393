import FindQuery.Request.Criteria
import FindQuery.Value.Same

/-! Equality of criteria: documents by what they mean, then sort orders and pages as they are. -/

namespace FindQuery

namespace Criteria

def same (a b : Criteria) : Comparison :=
  Comparison.and ((Value.document a.filter).same (.document b.filter))
    (.ok (a.sort = b.sort ∧ a.index = b.index ∧ a.size = b.size))

def mark (payload : Nat) (c : Criteria) : Criteria :=
  { c with filter := Value.markEntries payload c.filter }

end Criteria

def Resolver.answer [Host] (r : Resolver) (call : Nat) (query : Text) : Except ResolveError Criteria :=
  (r.ofQuery query).map (Criteria.mark call)

end FindQuery
