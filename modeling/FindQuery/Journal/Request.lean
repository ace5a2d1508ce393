import FindQuery.Journal.Attach
import FindQuery.Journal.Write
import FindQuery.Request.Criteria

/-! What requests leave in the journal. -/

namespace FindQuery

def Group.Defect.reason : Group.Defect → Text
  | .missingField => "missing field".toList
  | .unknownCondition _ => "unknown condition".toList

def Group.Defect.context : Group.Defect → Document
  | .missingField => []
  | .unknownCondition code => [("condition".toList, .text code)]

def Group.Dropped.message (d : Group.Dropped) : Text :=
  Journal.withContext
    ("Dropping filter group ".toList ++ d.triple.stem ++ ": ".toList ++ d.defect.reason)
    d.defect.context

namespace Journal

def parserName : Text := "QueryFilterParser".toList

def parserComponent : Option Text := some "filters".toList

def attachParser (j : Journal) : Journal := (j.attach parserName parserComponent).1

def noteDropped (j : Journal) (stamp : Stamp) : List Group.Dropped → Journal × List Record
  | [] => (j, [])
  | d :: rest =>
    let (j, made) := j.record stamp (fullName parserName parserComponent) Level.debug d.message
    let (j, more) := j.noteDropped stamp rest
    (j, made ++ more)

/-- Parses the filters of parameters, and records what is dropped before the parse ends. -/
def parse [Host] (j : Journal) (stamp : Stamp) (params : Params) :
    Journal × List Record × Except ResolveError Group.Filters :=
  let (j, made) := j.attachParser.noteDropped stamp (Group.dropped Group.defaultOptions params)
  (j, made, Resolver.parse params)

def resolve [Host] (j : Journal) (stamp : Stamp) (r : Resolver) (query : Text) :
    Journal × List Record × Except ResolveError Criteria :=
  let j := j.attachParser
  match Query.parse query with
  | .error e => (j, [], .error (.query e))
  | .ok params =>
    match j.parse stamp params with
    | (j, made, .error e) => (j, made, .error e)
    | (j, made, .ok filters) =>
      match r.compose params filters with
      | .error e => (j, made, .error e)
      | .ok (criteria, summary) =>
        let (j, more) := j.record stamp criteriaName Level.debug summary
        (j, made ++ more, .ok criteria)

end Journal
end FindQuery
