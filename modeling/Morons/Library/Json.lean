import Mathlib.Data.Int.NatAbs
import Mathlib.Tactic.Common

/-!
# JSON values and the records read from them

A JSON value as a strict parser hands it on: a number is a natural number, a
negative integer or a fraction, and no object repeats a name.  A record is read
from an object by the names of its fields, or from an array by their order.
-/

inductive Json
  | null
  | bool (value : Bool)
  | natural (value : Nat)
  | negative (magnitude : Nat)
  | fraction (value : Rat)
  | string (value : String)
  | array (values : List Json)
  | object (members : List (String × Json))

namespace Json

variable {α : Type}

def member (name : String) : List (String × Json) → Option Json
  | [] => none
  | (key, value) :: rest => if key = name then some value else member name rest

/-- `get` of a name, which only an object answers. -/
def get (name : String) : Json → Option Json
  | .object members => member name members
  | _ => none

def isObject : Json → Bool
  | .object _ => true
  | _ => false

def asString : Json → Option String
  | .string value => some value
  | _ => none

def asBool : Json → Option Bool
  | .bool value => some value
  | _ => none

def asU64 : Json → Option Nat
  | .natural value => if value < 2 ^ 64 then some value else none
  | _ => none

def asU32 : Json → Option Nat
  | .natural value => if value < 2 ^ 32 then some value else none
  | _ => none

def asU16 : Json → Option Nat
  | .natural value => if value < 2 ^ 16 then some value else none
  | _ => none

/-- The rational value of a number. -/
def asNumber : Json → Option Rat
  | .natural value => some value
  | .negative magnitude => some (-magnitude)
  | .fraction value => some value
  | _ => none

def asArray (read : Json → Option α) : Json → Option (List α)
  | .array values => values.mapM read
  | _ => none

/-! ## Records -/

/-- The fields of a record in their order.  A field with a default may be
missing from an array too, and a closed record has no other members. -/
structure Shape where
  fields : List String
  defaulted : List String := []
  closed : Bool := true

/-- What a record says of each name. -/
abbrev Fields := String → Option Json

def Shape.read (shape : Shape) : Json → Option Fields
  | .object members =>
    if shape.closed && members.any (fun m => m.1 ∉ shape.fields) then none
    else some fun name => member name members
  | .array values =>
    if values.length ≤ shape.fields.length ∧
        ∀ name ∈ shape.fields.drop values.length, name ∈ shape.defaulted then
      some fun name => values[shape.fields.idxOf name]?
    else none
  | _ => none

/-- A field that has to be there. -/
def Fields.required (r : Fields) (name : String) (read : Json → Option α) : Option α :=
  (r name).bind read

/-- A field that may be missing or null. -/
def Fields.optional (r : Fields) (name : String) (read : Json → Option α) : Option (Option α) :=
  match r name with
  | none | some .null => some none
  | some value => (read value).map some

/-- A field that may be missing but not null. -/
def Fields.withDefault (r : Fields) (name : String) (read : Json → Option α) (default : α) :
    Option α :=
  match r name with
  | none => some default
  | some value => read value

/-! ## Sizes -/

/-- Bounds on a value: its depth, its number of nodes, the length of an array,
the fields of an object, the bytes of a field's name and of a string. -/
structure Bounds where
  depth : Nat
  nodes : Nat
  items : Nat
  fields : Nat
  keyBytes : Nat
  stringBytes : Nat

mutual

/-- The number of nodes after those of a value, or `none` when a bound is exceeded. -/
def count (bounds : Bounds) (depth nodes : Nat) : Json → Option Nat
  | .array values =>
    if depth > bounds.depth ∨ nodes + 1 > bounds.nodes ∨ values.length > bounds.items then none
    else countAll bounds (depth + 1) (nodes + 1) values
  | .object members =>
    if depth > bounds.depth ∨ nodes + 1 > bounds.nodes ∨ members.length > bounds.fields then none
    else countMembers bounds (depth + 1) (nodes + 1) members
  | .string value =>
    if depth > bounds.depth ∨ nodes + 1 > bounds.nodes ∨ value.utf8ByteSize > bounds.stringBytes
    then none else some (nodes + 1)
  | _ => if depth > bounds.depth ∨ nodes + 1 > bounds.nodes then none else some (nodes + 1)

def countAll (bounds : Bounds) (depth nodes : Nat) : List Json → Option Nat
  | [] => some nodes
  | value :: rest => do countAll bounds depth (← count bounds depth nodes value) rest

def countMembers (bounds : Bounds) (depth nodes : Nat) : List (String × Json) → Option Nat
  | [] => some nodes
  | (key, value) :: rest => do
    if key.utf8ByteSize > bounds.keyBytes then none
    else countMembers bounds depth (← count bounds depth nodes value) rest

end

end Json
