import RenderMaterials.Shader.Stage

/-!
# Resource bindings

A resource that shaders use: its name, its kind, the slot it is bound to and the stages that see it.
-/

namespace RenderMaterials

/-- What is bound. -/
inductive BindingKind where
  | constantBuffer | readOnlyResource | readWriteResource | sampler
  deriving DecidableEq, Repr, Inhabited

namespace BindingKind

/-- The name of a kind. -/
def name : BindingKind → String
  | constantBuffer    => "ConstantBuffer"
  | readOnlyResource  => "ReadOnlyResource"
  | readWriteResource => "ReadWriteResource"
  | sampler           => "Sampler"

/-- The kind of a long or short name in any letter case. -/
def ofName? (s : String) : Option BindingKind :=
  match s.toLower with
  | "constantbuffer"    => some constantBuffer
  | "cbv"               => some constantBuffer
  | "readonlyresource"  => some readOnlyResource
  | "srv"               => some readOnlyResource
  | "texture"           => some readOnlyResource
  | "readwriteresource" => some readWriteResource
  | "uav"               => some readWriteResource
  | "storage"           => some readWriteResource
  | "sampler"           => some sampler
  | _                   => none

/-- The number of a kind in cache keys. -/
def tag : BindingKind → Nat
  | constantBuffer    => 0
  | readOnlyResource  => 1
  | readWriteResource => 2
  | sampler           => 3

/-- Whether a resource is bound by itself, and not in a table with others of its kind. -/
def isDirect (k : BindingKind) : Bool := k = constantBuffer

/-- The kinds that share tables, in the order of the tables. -/
def tableKinds : List BindingKind := [readOnlyResource, readWriteResource, sampler]

end BindingKind

/-- One resource; `slot` is `none` until one is assigned. -/
structure Binding where
  name   : String
  kind   : BindingKind
  slot   : Option Nat := none
  stages : StageSet := .empty
  deriving DecidableEq, Repr

namespace Binding

/-- Kind and slot, as messages show them. -/
def display (b : Binding) : String :=
  match b.slot with
  | some n => s!"{b.kind.name}@{n}"
  | none   => s!"{b.kind.name}@unassigned"

end Binding

end RenderMaterials
