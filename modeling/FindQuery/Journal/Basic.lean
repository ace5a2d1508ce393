import FindQuery.Journal.FilePath
import FindQuery.Journal.Files
import FindQuery.StableSort
import FindQuery.Text.Order

/-! A journal: loggers in a hierarchy of names, the files they write to, and what is in the files. -/

namespace FindQuery

abbrev Level := Int

namespace Level

def debug : Level := 10

def error : Level := 40

def name (n : Level) : Text :=
  if n = 0 then "NOTSET".toList
  else if n = 10 then "DEBUG".toList
  else if n = 20 then "INFO".toList
  else if n = 30 then "WARNING".toList
  else if n = 40 then "ERROR".toList
  else if n = 50 then "CRITICAL".toList
  else "Level ".toList ++ Numeral.ofInt n

end Level

inductive Layout
  | brief
  | located
  | report
deriving DecidableEq

structure Handler where
  file : Text
  threshold : Level
  layout : Layout
deriving DecidableEq

structure Logger where
  level : Level := 0
  handlers : List Handler := []
deriving DecidableEq

structure Record where
  logger : Text
  level : Level
  message : Text
deriving DecidableEq

structure Stamp where
  time : Text
  place : Text

structure Journal where
  rootLevel : Level
  filing : Bool
  debug : Bool
  cache : Entries Text := []
  loggers : Entries Logger := []
  files : Files := {}
deriving DecidableEq

namespace Journal

def rootName : Text := "doc-criteria".toList

def criteriaName : Text := "doc-criteria.criteria.Criteria".toList

def debugWords : List String := ["1", "true", "yes"]

def start (rootLevel : Level) (filing : Bool) (debugText : Text) : Journal where
  rootLevel
  filing
  debug := debugWords.any (·.toList = Text.lowerAscii debugText)
  loggers := [(rootName, {}), (criteriaName, {})]

def pointsBackwards (s : Text) : List Nat :=
  (s.zipIdx.filterMap fun (c, i) => if c = '.' then some i else none).reverse

/-- The lengths of the names above a name. The point right before a point that was used, and one at
the very start, do not count. -/
def cuts (bound : Nat) : List Nat → List Nat
  | [] => []
  | i :: rest =>
    if bound ≤ i then cuts bound rest else if i = 0 then [] else i :: cuts (i - 1) rest

def parent? (j : Journal) (name : Text) : Option Text :=
  ((cuts name.length (pointsBackwards name)).map name.take).find? fun above =>
    (j.loggers.get? above).isSome

def ancestors (j : Journal) : Nat → Text → List Text
  | 0, _ => []
  | bound + 1, name =>
    match j.parent? name with
    | none => []
    | some above => above :: ancestors j bound above

def lineage (j : Journal) (name : Text) : List Text := name :: j.ancestors name.length name

def logger (j : Journal) (name : Text) : Logger := (j.loggers.get? name).getD {}

/-- The first level along the line that is not zero, or else the level above all. -/
def effectiveLevel (j : Journal) (name : Text) : Level :=
  (((j.lineage name).map fun n => (j.logger n).level).find? (· ≠ 0)).getD j.rootLevel

def admits (j : Journal) (name : Text) (level : Level) : Bool :=
  0 < level && j.effectiveLevel name ≤ level

def listing (j : Journal) : List (Text × Text) :=
  stableSort (fun a b => Text.le a.1 b.1)
    (j.files.listing.filter fun file => FilePath.isInside file.1)

def keys (j : Journal) : List Text := stableSort Text.le j.cache.keys

end Journal
end FindQuery
