import RenderMaterials.Spelled
import RenderMaterials.Json.Value

/-!
# Material parameters

A parameter has a declared type and perhaps a default.  Values are taken as they are: an integer is
written without point or exponent, and a `float4` is an array of exactly four numbers.
-/

namespace RenderMaterials

inductive ParameterType where
  | float | int | bool | float4
  deriving DecidableEq, Repr, Inhabited

instance : Spelled ParameterType where
  all := [.float, .int, .bool, .float4]
  name
    | .float  => "float"
    | .int    => "int"
    | .bool   => "bool"
    | .float4 => "float4"
  complete a := by cases a <;> decide
  injective a b := by cases a <;> cases b <;> decide

/-- A typed value. -/
inductive ParameterValue where
  | float (x : Binary32)
  | int (n : Int)
  | bool (b : Bool)
  | float4 (x y z w : Binary32)
  deriving DecidableEq, Repr

namespace ParameterType

/-- Whether a value has the form of a type. -/
def accepts : ParameterType → Json → Bool
  | float,  v => v.isNumber
  | int,    v => v.integer?.isSome
  | bool,   v => v.bool?.isSome
  | float4, v =>
    match v.array? with
    | some items => items.length = 4 && items.all Json.isNumber
    | none       => false

/-- The nearest four-byte number. -/
def single? (v : Json) : Option Binary32 := v.number?.map (fun n => .ofBinary64 n.toBinary)

/-- The value of a type that a JSON value stands for; integers have 64 bits with a sign. -/
def value? : ParameterType → Json → Option ParameterValue
  | float,  v => (single? v).map .float
  | int,    v => v.int64?.map .int
  | bool,   v => v.bool?.map .bool
  | float4, v =>
    match v.array? with
    | some [a, b, c, d] => do
      return .float4 (← single? a) (← single? b) (← single? c) (← single? d)
    | _ => none

end ParameterType

/-- A declared parameter. -/
structure Parameter where
  name          : String
  type          : ParameterType
  defaultValue? : Option ParameterValue
  deriving DecidableEq, Repr

end RenderMaterials
