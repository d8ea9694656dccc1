import RenderMaterials.Table
import RenderMaterials.Number.Binary

/-!
# JSON values

Objects keep their keys in the order in which they first arrived, as tables do.  A number written
without point and exponent that fits 64 bits, signed or not, is an integer; every other number is a
binary one.
-/

namespace RenderMaterials

/-- A JSON number. -/
inductive JsonNumber where
  | integer (n : Int)
  | binary (x : Binary64)
  deriving DecidableEq, Repr

/-- A JSON value. -/
inductive Json where
  | null
  | bool (b : Bool)
  | number (n : JsonNumber)
  | text (s : String)
  | array (items : List Json)
  | object (fields : List (String × Json))
  deriving Inhabited

/-- The fields of an object. -/
abbrev JsonObject := Table String Json

namespace JsonNumber

/-- The nearest binary number. -/
def toBinary : JsonNumber → Binary64
  | integer n => .ofInt n
  | binary x  => x

end JsonNumber

namespace Json

def text? : Json → Option String
  | text s => some s
  | _      => none

def bool? : Json → Option Bool
  | bool b => some b
  | _      => none

def number? : Json → Option JsonNumber
  | number n => some n
  | _        => none

/-- The integer that a value is. -/
def integer? : Json → Option Int
  | number (.integer n) => some n
  | _                   => none

/-- The natural that a value is. -/
def natural? (v : Json) : Option Nat :=
  match v.integer? with
  | some (.ofNat n) => some n
  | _               => none

/-- The integer that a value is, when it fits 64 bits with a sign. -/
def int64? (v : Json) : Option Int :=
  match v.integer? with
  | some n => if n < Nat.pow 2 63 then some n else none
  | none   => none

def array? : Json → Option (List Json)
  | array items => some items
  | _           => none

def object? : Json → Option JsonObject
  | object fields => some fields
  | _             => none

/-- The field of an object; other values have none. -/
def field? : Json → String → Option Json
  | object fields, key => Table.value? fields key
  | _,             _   => none

/-- A field that is a text. -/
def textField? (v : Json) (key : String) : Option String := (v.field? key).bind text?

/-- A field that is an array. -/
def arrayField? (v : Json) (key : String) : Option (List Json) := (v.field? key).bind array?

/-- A field that is an object. -/
def objectField? (v : Json) (key : String) : Option JsonObject := (v.field? key).bind object?

def isNumber (v : Json) : Bool := v.number?.isSome

def isObject (v : Json) : Bool := v.object?.isSome

end Json

namespace JsonObject

/-- Takes a key away; the last entry moves to its place. -/
def swapRemove (fields : JsonObject) (key : String) : JsonObject :=
  match fields.span (fun e => e.1 ≠ key) with
  | (_, [])             => fields
  | (front, _ :: back)  =>
    match back.getLast? with
    | none      => front
    | some last => front ++ last :: back.dropLast

end JsonObject

end RenderMaterials
