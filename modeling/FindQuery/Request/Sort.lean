import FindQuery.Params.Basic

/-! The sort order of a request. -/

namespace FindQuery

inductive Direction
  | ascending
  | descending
deriving DecidableEq

def Direction.sign : Direction → Int
  | .ascending => 1
  | .descending => -1

def Direction.name : Direction → Text
  | .ascending => "ASCENDING".toList
  | .descending => "DESCENDING".toList

structure SortField where
  field : Text
  direction : Direction
deriving DecidableEq

namespace SortField

/-- Reads one entry. Neither an empty entry nor a lone minus names a field. -/
def ofEntry? : Text → Option SortField
  | [] => none
  | ['-'] => none
  | '-' :: field => some ⟨field, .descending⟩
  | field => some ⟨field, .ascending⟩

def listKey : Text := "sort[]".toList

def plainKey : Text := "sort".toList

def order (params : Params) : Option (List SortField) :=
  ((params.get? listKey).or (params.get? plainKey)).map (·.filterMap ofEntry?)

end SortField
end FindQuery
