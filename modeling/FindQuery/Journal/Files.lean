import FindQuery.Entries
import FindQuery.Numeral.Decimal
import FindQuery.Text.Utf8

/-! The files that loggers write to. -/

namespace FindQuery

/-- Files by their numbers, the numbers that stand under the paths, and for each logger the files that its
handlers have open. A file that gets another path keeps its number, and stays open where it is. -/
structure Files where
  texts : List Text := []
  paths : Entries Nat := []
  streams : Entries (List Nat) := []
deriving DecidableEq

namespace Files

def text (f : Files) (file : Nat) : Text := f.texts.getD file []

def get? (f : Files) (path : Text) : Option Text := (f.paths.get? path).map f.text

def listing (f : Files) : List (Text × Text) := f.paths.map fun e => (e.1, f.text e.2)

def streamsOf (f : Files) (logger : Text) : List Nat := (f.streams.get? logger).getD []

def openPath (f : Files) (path : Text) : Files × Nat :=
  match f.paths.get? path with
  | some file => (f, file)
  | none =>
    ({ f with texts := f.texts ++ [[]], paths := f.paths.put path f.texts.length }, f.texts.length)

def openPaths (f : Files) : List Text → Files × List Nat
  | [] => (f, [])
  | path :: rest =>
    let (f, file) := f.openPath path
    let (f, files) := f.openPaths rest
    (f, file :: files)

def append (f : Files) (file : Nat) (more : Text) : Files :=
  { f with texts := f.texts.modify file (· ++ more) }

def move (f : Files) (old new : Text) : Files :=
  match f.paths.get? old with
  | some file => { f with paths := (f.paths.erase old).put new file }
  | none => f

def rollSize : Nat := 10 * 1024 * 1024

def backupCount : Nat := 5

def backup (path : Text) (i : Nat) : Text := path ++ '.' :: Numeral.ofNat i

def shiftBackups (path : Text) : Nat → Files → Files
  | 0, f => f
  | i + 1, f => shiftBackups path i (f.move (backup path (i + 1)) (backup path (i + 2)))

def makeRoom (f : Files) (path : Text) : Files :=
  (shiftBackups path (backupCount - 1) f).move path (backup path 1)

def rollOver (f : Files) (path : Text) : Files × Nat := (f.makeRoom path).openPath path

def byteCount (s : Text) : Nat := (s.flatMap Utf8.encode).length

def isFull (f : Files) (file : Nat) (more : Text) : Bool :=
  rollSize ≤ byteCount (f.text file) + more.length

def write (f : Files) (path : Text) (file : Nat) (more : Text) : Files × Nat :=
  let (f, file) := if f.isFull file more then f.rollOver path else (f, file)
  (f.append file more, file)

end Files
end FindQuery
