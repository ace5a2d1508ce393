import FindQuery.Journal.Basic
import FindQuery.Value.Json

/-! Writing records. A record goes to the handlers of its logger and of all loggers above it. -/

namespace FindQuery.Journal

def withContext (message : Text) (context : Document) : Text :=
  if context = [] then message
  else message ++ " | Context: ".toList ++ (Value.document context).json

def line (layout : Layout) (stamp : Stamp) (r : Record) : Text :=
  let head := stamp.time ++ " - ".toList ++ r.logger ++ " - ".toList ++ r.level.name
    ++ " - ".toList
  let place := '[' :: stamp.place ++ [']']
  match layout with
  | .brief => head ++ r.message ++ ['\n']
  | .located => head ++ place ++ " - ".toList ++ r.message ++ ['\n']
  | .report => head ++ place ++ '\n' :: r.message ++ "\n\n".toList

def handlersAbove (j : Journal) (name : Text) : List Handler :=
  (j.lineage name).flatMap fun n => (j.logger n).handlers

/-- Writes a record through a handler that has a file open, and tells which one it has open then. -/
def writeTo (stamp : Stamp) (r : Record) (f : Files) (h : Handler) (file : Nat) : Files × Nat :=
  if h.threshold ≤ r.level then f.write h.file file (line h.layout stamp r) else (f, file)

def writeAll (stamp : Stamp) (r : Record) (f : Files) : List Handler → List Nat → Files × List Nat
  | h :: hs, file :: files =>
    let (f, file) := writeTo stamp r f h file
    let (f, files) := writeAll stamp r f hs files
    (f, file :: files)
  | _, files => (f, files)

def writeThrough (j : Journal) (stamp : Stamp) (r : Record) (f : Files) (name : Text) : Files :=
  let (f, files) := writeAll stamp r f (j.logger name).handlers (f.streamsOf name)
  { f with streams := f.streams.put name files }

def record (j : Journal) (stamp : Stamp) (name : Text) (level : Level) (message : Text) :
    Journal × List Record :=
  if j.admits name level then
    let r : Record := ⟨name, level, message⟩
    ({ j with files := (j.lineage name).foldl (j.writeThrough stamp r) j.files }, [r])
  else (j, [])

/-- Makes a record of a message with its context. When the level is reached, all integers in the
context have to be short enough to be written. -/
def log (j : Journal) (stamp : Stamp) (name : Text) (level : Level) (message : Text)
    (context : Document) : Except Numeral.DecimalError (Journal × List Record) :=
  if j.admits name level && !(Value.document context).isWritable then .error .tooLargeToWrite
  else .ok (j.record stamp name level (withContext message context))

end FindQuery.Journal
