import RenderMaterials.State.Override

/-!
# Registry of state blocks

The state blocks that a document declares, by category and id.  A block may name another of its
category as its `base`; it is then that block with its own fields put over it.  Blocks are resolved
in the order of their declarations, each after the blocks that it inherits from, and none twice.
-/

namespace RenderMaterials

/-- The categories of a document's `states`. -/
inductive StateCategory where
  | rasterizer | depthStencil | blend | renderTarget | vertexFormat
  deriving DecidableEq, Repr

namespace StateCategory

/-- The key of a category in `states`. -/
def key : StateCategory → String
  | rasterizer   => "rasterizerStates"
  | depthStencil => "depthStencilStates"
  | blend        => "blendStates"
  | renderTarget => "renderTargetStates"
  | vertexFormat => "vertexFormats"

end StateCategory

/-- A block's declaration. -/
abbrev StateDeclaration := String × JsonObject

namespace StateDeclaration

/-- One item of the array form. -/
def ofItem (key : String) (v : Json) : Except MaterialError StateDeclaration :=
  match v.object? with
  | none      => .error (.invalidDocument s!"states.{key}.[]" "state block must be an object")
  | some json =>
    match v.textField? "id" with
    | some id => .ok (id, json)
    | none    => .error (.missingField s!"states.{key}" "id")

/-- One entry of the keyed form. -/
def ofEntry (key : String) (e : String × Json) : Except MaterialError StateDeclaration :=
  match e.2.object? with
  | some json => .ok (e.1, json)
  | none      => .error (.invalidDocument s!"states.{key}.{e.1}" "state block must be an object")

/-- The declarations of a category, in the keyed form or as an array of blocks with ids. -/
def list (states : JsonObject) (key : String) : Except MaterialError (List StateDeclaration) :=
  match states.value? key with
  | none                => .ok []
  | some (.object es)   => es.mapM (ofEntry key)
  | some (.array items) => items.mapM (ofItem key)
  | some _              =>
    .error (.invalidDocument s!"states.{key}" "must be an object or an array")

end StateDeclaration

namespace StateBlock

/-- The base that a declaration names. -/
def base? (json : JsonObject) : Option String := (json.value? "base").bind Json.text?

/-- Resolves a block, after the blocks that it inherits from, and keeps it under its id; what is kept
already is left alone.  `entered` holds the ids that are being resolved, outermost first, and
`remaining` the declarations of the other ids. -/
def resolveInto {α : Type} [StateBlock α] (declared remaining : Table String JsonObject)
    (entered : List String) (resolved : Table String α) (id : String) :
    Except MaterialError (Table String α) :=
  if resolved.has id then .ok resolved
  else if entered.contains id then
    .error (.stateInheritanceCycle (category α) (entered.dropWhile (· ≠ id) ++ [id]))
  else match h : remaining.value? id with
    | none      => .ok resolved
    | some json =>
      match base? json with
      | none      => do return resolved.assign id (← override initial json)
      | some base =>
        if declared.has base then do
          have := Table.length_without_lt h
          let resolved ← resolveInto declared (remaining.without id) (entered ++ [id]) resolved base
          return resolved.assign id (← override ((resolved.value? base).getD initial) json)
        else .error (.missingStateBlock (category α) base s!"{category α} state '{id}'")
termination_by remaining.length

/-- The blocks of declarations; of several with one id the last counts. -/
def resolveAll (α : Type) [StateBlock α] (ds : List StateDeclaration) :
    Except MaterialError (Table String α) :=
  let declared := Table.ofPairs ds
  (ds.map Prod.fst).foldlM (resolveInto declared declared []) []

/-- The blocks of a category of `states`. -/
def readCategory (α : Type) [StateBlock α] (states : JsonObject) (c : StateCategory) :
    Except MaterialError (Table String α) := do
  resolveAll α (← StateDeclaration.list states c.key)

end StateBlock

/-- The blocks of a document. -/
structure StateRegistry where
  rasterizer   : Table String RasterizerState := []
  depthStencil : Table String DepthStencilState := []
  blend        : Table String BlendState := []
  renderTarget : Table String RenderTargetState := []
  vertexFormat : Table String VertexFormat := []
  deriving DecidableEq, Repr

namespace StateRegistry

/-- The blocks of a document's `states`; without it there are none. -/
def read (states : Option JsonObject) : Except MaterialError StateRegistry := do
  let states := states.getD []
  return {
    rasterizer   := ← StateBlock.readCategory _ states .rasterizer
    depthStencil := ← StateBlock.readCategory _ states .depthStencil
    blend        := ← StateBlock.readCategory _ states .blend
    renderTarget := ← StateBlock.readCategory _ states .renderTarget
    vertexFormat := ← StateBlock.readCategory _ states .vertexFormat }

/-- The number of blocks. -/
def size (r : StateRegistry) : Nat :=
  r.rasterizer.length + r.depthStencil.length + r.blend.length + r.renderTarget.length
    + r.vertexFormat.length

end StateRegistry

end RenderMaterials
