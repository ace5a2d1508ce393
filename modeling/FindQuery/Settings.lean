import FindQuery.Entries
import FindQuery.Numeral.Integer

/-! Settings from the environment. -/

namespace FindQuery

structure Settings where
  filterName : Text
  defaultSize : Int
deriving DecidableEq

inductive SettingsError
  | notAnInteger (raw : Text)
  | notPositive (size : Int)
deriving DecidableEq

abbrev Environment := Entries Text

inductive AssignError
  | nullInside
  | illegalName
  | emptyName
deriving DecidableEq

def AssignError.message : AssignError → Text
  | .nullInside => "embedded null byte".toList
  | .illegalName => "illegal environment variable name".toList
  | .emptyName => "[Errno 22] Invalid argument".toList

/-- Sets a variable. Null characters end a text outside, and an equals sign ends a name. -/
def Environment.assign (env : Environment) (name value : Text) :
    Except AssignError Environment :=
  if '\x00' ∈ name ∨ '\x00' ∈ value then .error .nullInside
  else if '=' ∈ name then .error .illegalName
  else if name = [] then .error .emptyName
  else .ok (env.put name value)

namespace Settings

def defaults : Settings := ⟨"filters".toList, 20⟩

def filterNameVariable : Text := "DOC_CRITERIA_FILTER_NAME".toList

def defaultSizeVariable : Text := "DOC_CRITERIA_DEFAULT_SIZE".toList

def readSize (raw : Text) : Except SettingsError Int :=
  match Numeral.padded? raw with
  | none => .error (.notAnInteger raw)
  | some n => if n ≤ 0 then .error (.notPositive n) else .ok n

/-- Reads the settings. An empty size counts as not given; an empty filter name does not. -/
def ofEnvironment (env : Environment) : Except SettingsError Settings := do
  let size ← match env.get? defaultSizeVariable with
    | none | some [] => pure defaults.defaultSize
    | some raw => readSize raw
  return ⟨(env.get? filterNameVariable).getD defaults.filterName, size⟩

end Settings

def SettingsError.message : SettingsError → Text
  | .notAnInteger raw =>
    Settings.defaultSizeVariable ++ " must be an integer, got ".toList ++ Text.quoted raw
  | .notPositive size =>
    Settings.defaultSizeVariable ++ " must be positive, got ".toList ++ Numeral.ofInt size

end FindQuery
