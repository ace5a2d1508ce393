import FindQuery.Journal.Basic
import FindQuery.Text.LowerCase

/-! Handing out loggers. -/

namespace FindQuery.Journal

def key (name : Text) (component : Option Text) : Text :=
  match component with
  | none | some [] => name
  | some c => c ++ '.' :: name

def fullName (name : Text) (component : Option Text) : Text :=
  rootName ++ '.' :: key name component

def ownPath (name : Text) (component : Option Text) : Text :=
  let file := Text.lower name ++ ".log".toList
  match component with
  | none | some [] => file
  | some c => FilePath.behind c file

def ownFile (name : Text) (component : Option Text) : Text :=
  FilePath.tidy (ownPath name component)

def errorFile : Text := "error.log".toList

/-- What the file system answers to a logger that asks for its two files: it opens both, the own one
alone, or none. -/
inductive Access
  | both
  | own (cause : Text)
  | none (cause : Text)
deriving DecidableEq

inductive AttachError
  | nullInside
  | refused (cause : Text)
deriving DecidableEq

def AttachError.message : AttachError → Text
  | .nullInside => "embedded null byte".toList
  | .refused cause => cause

def isNamable (name : Text) (component : Option Text) : Bool :=
  FilePath.isNamable name && component.all FilePath.isNamable

def refusal? (name : Text) (component : Option Text) (access : Access) : Option AttachError :=
  if isNamable name component then
    match access with
    | .both => none
    | .own cause | .none cause => some (.refused cause)
  else some .nullInside

def ownHandler (j : Journal) (name : Text) (component : Option Text) : Handler :=
  ⟨ownFile name component, 0, if j.debug then .located else .brief⟩

def errorHandler : Handler := ⟨errorFile, Level.error, .report⟩

def handlersFor (j : Journal) (name : Text) (component : Option Text) (access : Access) :
    List Handler :=
  if isNamable name component then
    match access with
    | .both => [j.ownHandler name component, errorHandler]
    | .own _ => [j.ownHandler name component]
    | .none _ => []
  else []

def register (j : Journal) (full : Text) : Journal :=
  let old := j.logger full
  let known := { old with level := if j.debug then Level.debug else old.level }
  { j with loggers := j.loggers.put full known }

def addHandlers (j : Journal) (full : Text) (added : List Handler) : Journal :=
  let old := j.logger full
  let longer := { old with handlers := old.handlers ++ added }
  let (files, opened) := j.files.openPaths (added.map Handler.file)
  { j with
    loggers := j.loggers.put full longer
    files := { files with streams := files.streams.put full (files.streamsOf full ++ opened) } }

def equip (j : Journal) (name : Text) (component : Option Text) (access : Access) : Journal :=
  let full := fullName name component
  let j := j.register full
  if j.filing then j.addHandlers full (j.handlersFor name component access) else j

/-- Asks for the logger of a name and a component. A key whose files are refused is not kept, but
what was opened stays. -/
def attach (j : Journal) (name : Text) (component : Option Text) (access : Access := .both) :
    Journal × Option AttachError :=
  let k := key name component
  if (j.cache.get? k).isSome then (j, none)
  else
    let j := j.equip name component access
    match if j.filing then refusal? name component access else none with
    | some e => (j, some e)
    | none => ({ j with cache := j.cache.put k (fullName name component) }, none)

def getLogger (j : Journal) (name : Text) (component : Option Text) (access : Access := .both) :
    Journal × Except AttachError Logger :=
  match j.attach name component access with
  | (j, some e) => (j, .error e)
  | (j, none) => (j, .ok (j.logger (fullName name component)))

end FindQuery.Journal
