import FindQuery.Group.Parse
import FindQuery.Node.Render
import FindQuery.Params.Query
import FindQuery.Request.Page
import FindQuery.Request.Sort
import FindQuery.Settings

/-! Criteria: all that a store needs to answer one request. -/

namespace FindQuery

structure Criteria where
  filter : Document
  sort : Option (List SortField)
  index : Int
  size : Int
deriving DecidableEq

namespace Criteria

def skip (c : Criteria) : Int := c.index

def limit (c : Criteria) : Int := c.size

end Criteria

inductive ResolveError
  | query (cause : QueryError)
  | parse (cause : Group.ParseError)
  | render (cause : RenderError)
  | summary (cause : Numeral.DecimalError)
deriving DecidableEq

def ResolveError.message : ResolveError → Text
  | .query cause => cause.message
  | .parse cause => cause.message
  | .render cause => cause.message
  | .summary cause => cause.message

structure Resolver where
  filterName : Text
  defaultSize : Int
  defaultSize_pos : 0 < defaultSize

structure BadDefaultSize where
  size : Int
deriving DecidableEq

def BadDefaultSize.message (e : BadDefaultSize) : Text :=
  "default_size must be positive, got ".toList ++ Numeral.ofInt e.size

namespace Resolver

def ofSettings (s : Settings) : Except BadDefaultSize Resolver :=
  if h : 0 < s.defaultSize then
    .ok ⟨s.filterName, s.defaultSize, h⟩
  else .error ⟨s.defaultSize⟩

def standard : Resolver := ⟨Settings.defaults.filterName, 20, by decide⟩

def parse [Host] (params : Params) : Except ResolveError Group.Filters :=
  (Group.parse Group.defaultOptions params).mapError .parse

/-- A line that tells what came out. It is written in any case, so that the page numbers have to
be short enough to be written. -/
def summary (r : Resolver) (filter : Filter) (c : Criteria) :
    Except Numeral.DecimalError Text := do
  let index ← Numeral.write c.index
  let size ← Numeral.write c.size
  return "Resolved criteria for '".toList ++ r.filterName ++ "': ".toList
    ++ Numeral.ofNat filter.members.length ++ " expression(s), index=".toList ++ index
    ++ ", size=".toList ++ size

def compose (r : Resolver) (params : Params) (filters : Group.Filters) :
    Except ResolveError (Criteria × Text) := do
  let filter := filters.named r.filterName
  let document ← (Backend.full.convert filter.node).mapError .render
  let criteria : Criteria :=
    ⟨document, SortField.order params, Page.index params, Page.size params r.defaultSize⟩
  let line ← (r.summary filter criteria).mapError .summary
  return (criteria, line)

def ofParams [Host] (r : Resolver) (params : Params) : Except ResolveError Criteria := do
  let filters ← parse params
  let (criteria, _) ← r.compose params filters
  return criteria

def ofQuery [Host] (r : Resolver) (query : Text) : Except ResolveError Criteria := do
  let params ← (Query.parse query).mapError .query
  r.ofParams params

end Resolver
end FindQuery
