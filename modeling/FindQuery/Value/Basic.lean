import FindQuery.Entries
import FindQuery.Binary64.Basic
import FindQuery.Calendar.Moment

/-! The values that conditions compare with and that documents hold. -/

namespace FindQuery

structure Pattern where
  source : Text
  options : Text
deriving DecidableEq

inductive Value
  | null
  | bool (b : Bool)
  | int (n : Int)
  | float (x : Binary64)
  | text (s : Text)
  | moment (m : Moment)
  | pattern (p : Pattern)
  | list (items : List Value)
  | document (entries : List (Text × Value))

abbrev Document := Entries Value

namespace Value

instance : Inhabited Value := ⟨.null⟩

mutual

/-- Whether two values are the same in every detail: type, sign of zero, and order of keys. -/
def identical : Value → Value → Bool
  | .null, .null => true
  | .bool a, .bool b => a = b
  | .int a, .int b => a = b
  | .float a, .float b => a = b
  | .text a, .text b => a = b
  | .moment a, .moment b => a = b
  | .pattern a, .pattern b => a = b
  | .list a, .list b => identicalList a b
  | .document a, .document b => identicalEntries a b
  | _, _ => false

def identicalList : List Value → List Value → Bool
  | [], [] => true
  | a :: as, b :: bs => identical a b && identicalList as bs
  | _, _ => false

def identicalEntries : List (Text × Value) → List (Text × Value) → Bool
  | [], [] => true
  | (k, a) :: as, (l, b) :: bs => k = l && identical a b && identicalEntries as bs
  | _, _ => false

end

mutual

theorem identical_iff : ∀ a b : Value, identical a b = true ↔ a = b
  | .null, b | .bool _, b | .int _, b | .float _, b | .text _, b | .moment _, b
  | .pattern _, b => by cases b <;> simp [identical]
  | .list as, b => by
    cases b <;> simp [identical]
    exact identicalList_iff as _
  | .document as, b => by
    cases b <;> simp [identical]
    exact identicalEntries_iff as _

theorem identicalList_iff : ∀ as bs : List Value, identicalList as bs = true ↔ as = bs
  | [], bs => by cases bs <;> simp [identicalList]
  | a :: as, bs => by
    cases bs with
    | nil => simp [identicalList]
    | cons b bs => simp [identicalList, identical_iff a b, identicalList_iff as bs]

theorem identicalEntries_iff :
    ∀ as bs : List (Text × Value), identicalEntries as bs = true ↔ as = bs
  | [], bs => by cases bs <;> simp [identicalEntries]
  | (k, a) :: as, bs => by
    cases bs with
    | nil => simp [identicalEntries]
    | cons e bs =>
      obtain ⟨l, b⟩ := e
      simp [identicalEntries, identical_iff a b, identicalEntries_iff as bs]

end

instance : DecidableEq Value := fun a b => decidable_of_iff _ (identical_iff a b)

def typeName : Value → Text
  | .null => "NoneType".toList
  | .bool _ => "bool".toList
  | .int _ => "int".toList
  | .float _ => "float".toList
  | .text _ => "str".toList
  | .moment _ => "datetime".toList
  | .pattern _ => "RegexMatch".toList
  | .list _ => "list".toList
  | .document _ => "dict".toList

def qualifiedTypeName : Value → Text
  | .moment _ => "datetime.datetime".toList
  | v => v.typeName

end Value
end FindQuery
