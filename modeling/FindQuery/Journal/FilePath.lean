import FindQuery.Text.Basic

/-! Paths of files, as seen from the directory of a journal. -/

namespace FindQuery.FilePath

def upStep : Text := ['.', '.']

def walk (done : List Text) (step : Text) : List Text :=
  if step = [] ∨ step = ['.'] then done
  else if step = upStep then
    match done with
    | [] => [upStep]
    | last :: rest => if last = upStep then upStep :: last :: rest else rest
  else step :: done

def directSteps (path : Text) : List Text := ((Text.splitOn '/' path).foldl walk []).reverse

def isAbsolute (path : Text) : Bool := path.head? = some '/'

def tidy (path : Text) : Text :=
  let direct := Text.joinWith ['/'] (directSteps path)
  if isAbsolute path then '/' :: direct else direct

def behind (directory path : Text) : Text :=
  if isAbsolute path then path else directory ++ '/' :: path

def isInside (path : Text) : Bool :=
  !isAbsolute path && (Text.splitOn '/' path).head? ≠ some upStep

def isNamable (path : Text) : Bool := !path.contains '\x00'

end FindQuery.FilePath
