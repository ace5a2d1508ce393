import FindQuery.Operator

/-! The condition codes of request parameters. -/

namespace FindQuery.Condition

/-- The codes with their operators. No code at all means equality, and `like` is a regular
expression without wildcards of its own. -/
def catalog : List (String × Operator) :=
  [("", .eq), ("eq", .eq), ("ne", .ne), ("gt", .gt), ("gte", .gte), ("lt", .lt), ("lte", .lte),
    ("in", .isIn), ("nin", .notIn), ("regex", .regex), ("like", .regex)]

def operator? (code : Text) : Option Operator :=
  (catalog.find? (·.1.toList = code)).map Prod.snd

end FindQuery.Condition
