import RenderMaterials.Reflection.Usage
import RenderMaterials.Spirv.Entry
import RenderMaterials.Table

/-!
# Resource usage of SPIR-V modules

A resource is a variable with a descriptor set and a binding.  A function uses it when it loads,
stores, samples or asks for something that is reached from it, or when it calls a function that
does.  Reaching alone is no use: neither an access chain nor loading the handle of an image or a
sampler.
-/

namespace RenderMaterials.Spirv

/-! ### Declarations -/

namespace Decoration

@[match_pattern] abbrev bufferBlock : Word := 3
@[match_pattern] abbrev nonWritable : Word := 24
@[match_pattern] abbrev binding : Word := 33
@[match_pattern] abbrev descriptorSet : Word := 34

end Decoration

/-- Where a variable lives. -/
inductive StorageClass where
  | handle | uniform | storageBuffer | other
  deriving DecidableEq, Repr

/-- The storage class of a number. -/
def StorageClass.ofWord : Word → StorageClass
  | 0  => .handle
  | 2  => .uniform
  | 12 => .storageBuffer
  | _  => .other

namespace Module

/-- The name that a module gives to an id; the last one counts. -/
def name? (m : Module) (id : Id) : Option String :=
  m.instructions.reverse.findSome? fun i =>
    match i.opcode, i.operands with
    | Op.name, target :: text => if target = id then text? text else none
    | _,       _              => none

/-- The arguments of a decoration of an id; the last one counts. -/
def decoration? (m : Module) (id : Id) (d : Word) : Option (List Word) :=
  m.instructions.reverse.findSome? fun i =>
    match i.opcode, i.operands with
    | Op.decorate, target :: kind :: rest => if target = id ∧ kind = d then some rest else none
    | _,           _                      => none

/-- The instruction that defines a type. -/
def type? (m : Module) (id : Id) : Option Instruction :=
  m.instructions.find? fun i =>
    Op.typeVoid ≤ i.opcode && i.opcode ≤ Op.typeFunction && i.operands.head? = some id

/-- The type behind a pointer type. -/
def pointee? (m : Module) (id : Id) : Option Id :=
  match m.type? id with
  | some ⟨Op.typePointer, [_, _, target]⟩ => some target
  | _                                     => none

/-- The type of the entries of an array type; any other type itself. -/
def entryType (m : Module) (id : Id) : Id :=
  match m.type? id with
  | some ⟨Op.typeArray, _ :: entry :: _⟩        => entry
  | some ⟨Op.typeRuntimeArray, _ :: entry :: _⟩ => entry
  | _                                           => id

/-- Buffers and images can be written to unless the variable forbids it. -/
def access (m : Module) (var : Id) : StorageAccess :=
  ⟨true, (m.decoration? var Decoration.nonWritable).isNone⟩

/-- The handles of a type. -/
def handleType (m : Module) (var type : Id) : HandleType :=
  match m.type? (m.entryType type) with
  | some ⟨Op.typeSampler, _⟩      => .sampler
  | some ⟨Op.typeSampledImage, _⟩ => .image
  | some ⟨Op.typeImage, operands⟩ =>
    if operands[6]? = some 2 then .storageImage (m.access var) else .image
  | _                             => .other

/-- Where a variable of a type lives. -/
def addressSpace (m : Module) (var type : Id) : StorageClass → AddressSpace
  | .uniform       =>
    if (m.decoration? type Decoration.bufferBlock).isSome then .storage (m.access var)
    else .uniform
  | .storageBuffer => .storage (m.access var)
  | .handle        => .handle
  | .other         => .other

end Module

/-- A global variable with its id. -/
structure Global where
  id       : Id
  declared : GlobalVariable
  deriving DecidableEq, Repr

namespace Module

/-- The resource that an instruction declares. -/
def global? (m : Module) (i : Instruction) : Option Global :=
  match i.opcode, i.operands with
  | Op.declareVariable, pointer :: id :: storage :: _ => do
    let group ← (← m.decoration? id Decoration.descriptorSet).head?
    let binding ← (← m.decoration? id Decoration.binding).head?
    let type ← m.pointee? pointer
    let space := m.addressSpace id type (StorageClass.ofWord storage)
    return ⟨id, m.name? id, space, some ⟨group.toNat, binding.toNat⟩, m.handleType id type⟩
  | _, _ => none

/-- The resources of a module, in order. -/
def globals (m : Module) : List Global := m.instructions.filterMap m.global?

end Module

/-! ### Functions -/

/-- A function with the instructions between its first and its last one. -/
structure Function where
  id   : Id
  body : List Instruction
  deriving DecidableEq, Repr

/-- The functions of instructions, one of which may be open; none when one stays open. -/
def functions? : Option Function → List Instruction → Option (List Function)
  | none,   []      => some []
  | some _, []      => none
  | none,   i :: is =>
    match i.opcode, i.operands with
    | Op.function, _ :: id :: _ => functions? (some ⟨id, []⟩) is
    | _,           _            => functions? none is
  | some f, i :: is =>
    if i.opcode = Op.functionEnd then (functions? none is).map (f :: ·)
    else functions? (some { f with body := f.body ++ [i] }) is

/-- What a function does with resources: the variables that its values are reached from, those that
it uses, and the functions that it calls. -/
structure Trace where
  reach  : Table Id (List Id) := []
  used   : List Id := []
  called : List Id := []
  deriving DecidableEq, Repr

namespace Trace

/-- The variables that a value is reached from. -/
def origins (t : Trace) (id : Id) : List Id := (t.reach.value? id).getD []

/-- Records what a new value is reached from. -/
def reaches (t : Trace) (id : Id) (vars : List Id) : Trace :=
  { t with reach := t.reach.assign id vars }

/-- Records a use of some variables. -/
def use (t : Trace) (vars : List Id) : Trace := { t with used := t.used ++ vars }

/-- Follows one instruction. -/
def step (isHandle : Id → Bool) (t : Trace) (i : Instruction) : Trace :=
  match i.opcode, i.operands with
  | Op.accessChain, _ :: result :: base :: _         => t.reaches result (t.origins base)
  | Op.inBoundsAccessChain, _ :: result :: base :: _ => t.reaches result (t.origins base)
  | Op.load, _ :: result :: place :: _               =>
    let (handles, others) := (t.origins place).partition isHandle
    (t.reaches result handles).use others
  | Op.sampledImage, _ :: result :: image :: sampler :: _ =>
    t.reaches result (t.origins image ++ t.origins sampler)
  | Op.store, place :: _                => t.use (t.origins place)
  | Op.atomicStore, place :: _          => t.use (t.origins place)
  | Op.imageWrite, image :: _           => t.use (t.origins image)
  | Op.arrayLength, _ :: _ :: place :: _ => t.use (t.origins place)
  | Op.functionCall, _ :: _ :: f :: args =>
    { t.use (args.flatMap t.origins) with called := t.called ++ [f] }
  | op, _ :: _ :: place :: _ =>
    if Op.readsImage op || Op.isAtomic op then t.use (t.origins place) else t
  | _, _ => t

end Trace

/-- Follows a function from its start, where each variable is reached from itself. -/
def Function.trace (f : Function) (globals : List Global) : Trace :=
  f.body.foldl (Trace.step fun v => globals.any fun g => g.id = v && g.declared.space = .handle)
    { reach := globals.map fun g => (g.id, [g.id]) }

/-- Some functions and those that they call at once. -/
def withCalled (traces : Table Id Trace) (fs : List Id) : List Id :=
  fs.foldl (fun seen f =>
    ((traces.value? f).elim [] Trace.called).foldl
      (fun seen g => if seen.contains g then seen else seen ++ [g]) seen) fs

/-- A function and all that it calls, directly or not. -/
def callees (traces : Table Id Trace) (f : Id) : List Id :=
  traces.foldl (fun fs _ => withCalled traces fs) [f]

/-- The variables that a function uses, itself or in what it calls. -/
def usedIds (traces : Table Id Trace) (f : Id) : List Id :=
  (callees traces f).flatMap fun g => (traces.value? g).elim [] Trace.used

namespace Module

/-- The entry point that a function is, if it is one; the last one counts. -/
def entry? (m : Module) (f : Id) : Option ModuleEntry :=
  m.instructions.reverse.findSome? fun i =>
    match i.opcode, i.operands with
    | Op.entryPoint, model :: target :: name =>
      if target = f then do return ⟨← text? name, ← ModuleStage.ofExecutionModel? model⟩ else none
    | _,             _                       => none

/-- The entry points of a module, in the order of their functions, with the resources that they
use. -/
def usage? (m : Module) : Option ModuleUsage := do
  let functions ← functions? none m.instructions
  let globals := m.globals
  let traces := functions.map fun f => (f.id, f.trace globals)
  let entries := functions.filterMap fun f => (m.entry? f.id).map (f.id, ·)
  let used := entries.map fun e => usedIds traces e.1
  return {
    entries := entries.map Prod.snd
    globals := globals.map Global.declared
    uses    := fun e v => ((used[e]?).getD []).any fun id => (globals[v]?).any (·.id = id) }

end Module

end RenderMaterials.Spirv
