import FindQuery.Coerce
import FindQuery.Params.Basic

/-! The page of a request: how many documents to pass over and how many to return. -/

namespace FindQuery.Page

def cutLineBreak (s : Text) : Text × Text :=
  if s.getLast? = some '\n' then (s.dropLast, ['\n']) else (s, [])

def cutZeroDecimals (s : Text) : Text :=
  match s.reverse.span (· = '0') with
  | (_ :: _, '.' :: rest) => rest.reverse
  | _ => s

/-- Zero decimals are dropped at the end and in front of a line break at the end, which stays. -/
def dropZeroDecimals (s : Text) : Text :=
  let (body, ending) := cutLineBreak s
  cutZeroDecimals body ++ ending

/-- Reads a page number. Zero decimals are dropped first, and a zero in front marks an octal number. One
line break may stand behind an octal number. -/
def number? (s : Text) : Option Int :=
  let s := dropZeroDecimals s
  (Numeral.zeroOctal? (cutLineBreak s).1).or (Coerce.int? s)

def index (params : Params) : Int := max ((number? (params.first "index".toList)).getD 0) 0

def requestedSize? (params : Params) : Option Int :=
  (number? (params.first "size".toList)).bind fun n => if n ≤ 0 then none else some n

def size (params : Params) (default : Int) : Int := (requestedSize? params).getD default

end FindQuery.Page
