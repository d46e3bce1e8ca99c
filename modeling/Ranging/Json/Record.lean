import Ranging.Json.Numeral

/-!
Records with named fields as JSON values.

A record is an object with its field names as keys, or an array of its fields in order. Unknown
keys are skipped, a field may be named once only, and an array must not have more items than the
record has fields.
-/
namespace Ranging.Json

namespace Value

/-- A record with its fields in order. -/
def record (fields : List (String × Value)) : Value :=
  object (fields.map fun (name, value) => (some name, value))

def membersNamed (members : List (Option String × Value)) (name : String) : List Value :=
  members.filterMap fun (key, value) => if key = some name then some value else none

/-- The values of a record's fields in order, none for those that are not written. -/
def fields? (names : List String) : Value → Option (List (Option Value))
  | array items =>
    if items.length ≤ names.length then
      some (items.map some ++ List.replicate (names.length - items.length) none)
    else none
  | object members =>
    if members.any (·.1.isNone) then none
    else
      names.mapM fun name =>
        match membersNamed members name with
        | [] => some none
        | [value] => some (some value)
        | _ => none
  | _ => none

/-- The items of an array with a given length. -/
def items? (length : Nat) : Value → Option (List Value)
  | array items => if items.length = length then some items else none
  | _ => none

/-- Both items of an array of two. -/
def pair? {α : Type} (item? : Value → Option α) (v : Value) : Option (α × α) :=
  match v.items? 2 with
  | some [first, second] => do
    let first ← item? first
    let second ← item? second
    return (first, second)
  | _ => none

end Value

def required {α : Type} (read? : Value → Option α) (field : Option Value) : Option α :=
  match field with
  | none => none
  | some value => read? value

/-- A field that may be left out. -/
def optional {α : Type} (standard : α) (read? : Value → Option α) (field : Option Value) :
    Option α :=
  match field with
  | none => some standard
  | some value => read? value

/-- A value that may also be `null`. -/
def nullable? {α : Type} (read? : Value → Option α) : Value → Option (Option α)
  | .null => some none
  | value => (read? value).map some

end Ranging.Json
