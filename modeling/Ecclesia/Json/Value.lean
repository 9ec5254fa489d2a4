import Ecclesia.Absl.Strings
import Ecclesia.Library.Parts
import Mathlib.Data.Rat.Defs

namespace Ecclesia

/-!
# JSON values

The payloads of a Redfish service are handled as values of the JSON library.
A number keeps the three representations the library distinguishes.  A
floating point number of a payload is always finite, and is modelled by its
exact rational value.  Only accessors that the program calls are defined.
-/

inductive Json where
  | null
  | boolean (value : Bool)
  | integer (value : Int)
  | unsigned (value : Nat)
  | float (value : Rat)
  | string (value : Text)
  | array (elements : List Json)
  | object (members : List (Text × Json))
  | discarded

namespace Json

/-- Members of an object by name; no other kind of value has members. -/
def find : Json -> Text -> Option Json
  | .object members, name => members.lookup name
  | _, _ => none

def contains (value : Json) (name : Text) : Bool :=
  (value.find name).isSome

def isString : Json -> Bool
  | .string _ => true
  | _ => false

def isNull : Json -> Bool
  | .null => true
  | _ => false

/-- `empty()`: whether there are no elements or members.  A primitive value is not empty. -/
def isEmpty : Json -> Bool
  | .null | .array [] | .object [] => true
  | _ => false

/-- The values that a loop over a value visits.  A primitive value is visited itself. -/
def items : Json -> List Json
  | .null => []
  | .array elements => elements
  | .object members => members.map Prod.snd
  | value => [value]

/-- Comparison with a boolean constant.  A number is never equal to it. -/
def equalsBoolean : Json -> Bool -> Bool
  | .boolean value, constant => value == constant
  | _, _ => false

/-- Comparison with a string. -/
def equalsText : Json -> Text -> Bool
  | .string value, constant => value == constant
  | _, _ => false

def string? : Json -> Option Text
  | .string value => some value
  | _ => none

/-- `get<std::string>()`, which throws at every value that is no string. -/
def getString : Json -> Evaluation Text
  | .string value => .ok value
  | _ => .error (.exception (text "type_error.302"))

/-- The mutable `operator[]` at an index, for which null becomes an array and an array grows. -/
def atIndex : Json -> Nat -> Evaluation Json
  | .null, _ => .ok .null
  | .array elements, index => .ok (elements.getD index .null)
  | _, _ => .error (.exception (text "type_error.305"))

end Json

namespace Json

/-!
## Updates of JSON values

The members of an object are kept in the order of their names.  An update gives the changed
value; where the library throws an exception, the update does.
-/

/-- `value_t` -/
inductive ValueType where
  | null
  | boolean
  | numberInteger
  | numberUnsigned
  | numberFloat
  | string
  | array
  | object
  | discarded
deriving DecidableEq

def type : Json -> ValueType
  | .null => .null
  | .boolean _ => .boolean
  | .integer _ => .numberInteger
  | .unsigned _ => .numberUnsigned
  | .float _ => .numberFloat
  | .string _ => .string
  | .array _ => .array
  | .object _ => .object
  | .discarded => .discarded

/-- `size()`: a primitive value has one element. -/
def size : Json -> Nat
  | .null => 0
  | .array elements => elements.length
  | .object members => members.length
  | _ => 1

/-- Enter a member of an object at its place, or give a new value to the one that is there. -/
def insertMember (name : Text) (value : Json) : List (Text × Json) -> List (Text × Json)
  | [] => [(name, value)]
  | (other, current) :: rest =>
    if other = name then (name, value) :: rest
    else if name < other then (name, value) :: (other, current) :: rest
    else (other, current) :: insertMember name value rest

/-- `json[name] = value`.  The null value becomes an object. -/
def assign (json : Json) (name : Text) (value : Json) : Evaluation Json :=
  match json with
  | .null => .ok (.object [(name, value)])
  | .object members => .ok (.object (insertMember name value members))
  | _ => .error (.exception (text "type_error.305"))

/-- Give a new value to a member that is there. -/
def updateMember (json : Json) (name : Text) (value : Json) : Json :=
  match json with
  | .object members => .object (insertMember name value members)
  | _ => json

def eraseMember (json : Json) (name : Text) : Json :=
  match json with
  | .object members => .object (members.filter fun member => member.1 ≠ name)
  | _ => json

/-- The value with other items, of which there are as many. -/
def withItems (json : Json) (items : List Json) : Json :=
  match json with
  | .array _ => .array items
  | .object members => .object ((members.map Prod.fst).zip items)
  | _ => json

end Json

namespace Json

/-!
## Parts of a JSON value

The immediate parts of a value are the elements of an array or the values of the members of
an object.
-/

def parts : Json -> List Json
  | .array elements => elements
  | .object members => members.map Prod.snd
  | _ => []

lemma sizeOf_parts_lt (whole child : Json) (isPart : child ∈ whole.parts) :
    sizeOf child < sizeOf whole := by
  cases whole with
  | array elements =>
    have element : sizeOf child < sizeOf elements := List.sizeOf_lt_of_mem isPart
    rw [Json.array.sizeOf_spec]
    omega
  | object members =>
    rcases List.mem_map.mp isPart with ⟨⟨name, value⟩, member, same⟩
    subst same
    have entry := List.sizeOf_lt_of_mem member
    rw [Prod.mk.sizeOf_spec] at entry
    rw [Json.object.sizeOf_spec]
    dsimp only
    omega
  | _ => cases isPart

/-- Induction over the parts of a value. -/
lemma induction_on_parts {motive : Json -> Prop}
    (step : ∀ whole, (∀ child ∈ whole.parts, motive child) -> motive whole) :
    ∀ whole, motive whole :=
  induction_parts sizeOf_parts_lt step

end Json

end Ecclesia
