import RenderMaterials.State.Blocks
import RenderMaterials.Json.Printer
import RenderMaterials.Error

/-!
# Overriding state blocks

A JSON object applied to a block replaces the fields that it mentions and keeps the others.  A field
with a value of the wrong kind is refused.
-/

namespace RenderMaterials

/-- The fields of a JSON object that overrides a block of a category. -/
structure Overrides where
  category : String
  json     : JsonObject

namespace Overrides

/-- The refusal of a field's value. -/
def invalid (o : Overrides) (field : String) (v : Json) : MaterialError :=
  .invalidStateValue o.category field v.compact

/-- What `read` makes of a field, or the old value when the field is absent. -/
def field {α : Type} (o : Overrides) (name : String) (read : Json → Option α) (old : α) :
    Except MaterialError α :=
  match o.json.value? name with
  | none   => .ok old
  | some v =>
    match read v with
    | some a => .ok a
    | none   => .error (o.invalid name v)

def bool (o : Overrides) (name : String) (old : Bool) : Except MaterialError Bool :=
  o.field name Json.bool? old

/-- A natural below a bound. -/
def natural (o : Overrides) (name : String) (bound old : Nat) : Except MaterialError Nat :=
  o.field name (fun v => v.natural?.filter (· < bound)) old

/-- An integer of 32 bits. -/
def int32 (o : Overrides) (name : String) (old : Int) : Except MaterialError Int :=
  o.field name (fun v => v.integer?.filter (fun n => -Int.pow 2 31 ≤ n && n < Int.pow 2 31)) old

def binary32 (o : Overrides) (name : String) (old : Binary32) : Except MaterialError Binary32 :=
  o.field name (fun v => v.number?.map (fun n => .ofBinary64 n.toBinary)) old

def spelled {α : Type} [Spelled α] (o : Overrides) (name : String) (old : α) :
    Except MaterialError α :=
  o.field name (fun v => v.text?.bind Spelled.ofName?) old

/-- The object in a field, if the field is there. -/
def object (o : Overrides) (name : String) : Except MaterialError (Option JsonObject) :=
  o.field name (fun v => v.object?.map some) none

/-- The array in a field, if the field is there. -/
def array (o : Overrides) (name : String) : Except MaterialError (Option (List Json)) :=
  o.field name (fun v => v.array?.map some) none

end Overrides

/-- A kind of state block that documents declare. -/
class StateBlock (α : Type) where
  /-- The name of the kind in messages. -/
  category : String
  /-- The block that says nothing. -/
  initial : α
  /-- Overrides the fields that an object mentions. -/
  override : α → JsonObject → Except MaterialError α

/-! ### Rasterizer -/

def RasterizerState.override (s : RasterizerState) (json : JsonObject) :
    Except MaterialError RasterizerState := do
  let o : Overrides := ⟨"rasterizer", json⟩
  return {
    fillMode              := ← o.spelled "fillMode" s.fillMode
    cullMode              := ← o.spelled "cullMode" s.cullMode
    frontCounterClockwise := ← o.bool "frontCounterClockwise" s.frontCounterClockwise
    depthBias             := ← o.int32 "depthBias" s.depthBias
    depthBiasClamp        := ← o.binary32 "depthBiasClamp" s.depthBiasClamp
    slopeScaledDepthBias  := ← o.binary32 "slopeScaledDepthBias" s.slopeScaledDepthBias
    depthClipEnable       := ← o.bool "depthClipEnable" s.depthClipEnable
    multisampleEnable     := ← o.bool "multisampleEnable" s.multisampleEnable
    antialiasedLineEnable := ← o.bool "antialiasedLineEnable" s.antialiasedLineEnable
    forcedSampleCount     := ← o.natural "forcedSampleCount" word32Bound s.forcedSampleCount
    conservativeRaster    := ← o.bool "conservativeRaster" s.conservativeRaster }

instance : StateBlock RasterizerState := ⟨"rasterizer", {}, RasterizerState.override⟩

/-! ### Depth and stencil -/

def StencilFace.override (s : StencilFace) (json : JsonObject) :
    Except MaterialError StencilFace := do
  let o : Overrides := ⟨"depthStencil", json⟩
  return {
    failOp      := ← o.spelled "stencilFailOp" s.failOp
    depthFailOp := ← o.spelled "stencilDepthFailOp" s.depthFailOp
    passOp      := ← o.spelled "stencilPassOp" s.passOp
    func        := ← o.spelled "stencilFunc" s.func }

/-- Overrides one side, when an object for it is there. -/
def StencilFace.overrideIn (s : StencilFace) (o : Overrides) (field : String) :
    Except MaterialError StencilFace := do
  match ← o.object field with
  | some json => s.override json
  | none      => return s

def DepthStencilState.override (s : DepthStencilState) (json : JsonObject) :
    Except MaterialError DepthStencilState := do
  let o : Overrides := ⟨"depthStencil", json⟩
  return {
    depthEnable      := ← o.bool "depthEnable" s.depthEnable
    depthWriteMask   := ← o.spelled "depthWriteMask" s.depthWriteMask
    depthFunc        := ← o.spelled "depthFunc" s.depthFunc
    stencilEnable    := ← o.bool "stencilEnable" s.stencilEnable
    stencilReadMask  := ← o.natural "stencilReadMask" 256 s.stencilReadMask
    stencilWriteMask := ← o.natural "stencilWriteMask" 256 s.stencilWriteMask
    frontFace        := ← s.frontFace.overrideIn o "frontFace"
    backFace         := ← s.backFace.overrideIn o "backFace" }

instance : StateBlock DepthStencilState := ⟨"depthStencil", {}, DepthStencilState.override⟩

/-! ### Blending -/

/-- The channels that a name, or each name of a list, stands for. -/
def ColorWriteMask.read? (v : Json) : Option ColorWriteMask :=
  let names := match v with
    | .array items => items
    | v            => [v]
  names.foldlM (fun mask n => (n.text?.bind ColorWriteMask.ofChannel?).map mask.union) .none

def TargetBlend.override (s : TargetBlend) (json : JsonObject) :
    Except MaterialError TargetBlend := do
  let o : Overrides := ⟨"blend", json⟩
  return {
    blendEnable    := ← o.bool "blendEnable" s.blendEnable
    logicOpEnable  := ← o.bool "logicOpEnable" s.logicOpEnable
    srcBlend       := ← o.spelled "srcBlend" s.srcBlend
    destBlend      := ← o.spelled "destBlend" s.destBlend
    blendOp        := ← o.spelled "blendOp" s.blendOp
    srcBlendAlpha  := ← o.spelled "srcBlendAlpha" s.srcBlendAlpha
    destBlendAlpha := ← o.spelled "destBlendAlpha" s.destBlendAlpha
    blendOpAlpha   := ← o.spelled "blendOpAlpha" s.blendOpAlpha
    logicOp        := ← o.spelled "logicOp" s.logicOp
    writeMask      := ← o.field "renderTargetWriteMask" ColorWriteMask.read? s.writeMask }

/-- Overrides targets position by position; values beyond the last target are ignored. -/
def TargetBlend.overrideEach (o : Overrides) :
    List TargetBlend → List Json → Except MaterialError (List TargetBlend)
  | t :: ts, v :: vs => do
    match v.object? with
    | some json => return (← t.override json) :: (← overrideEach o ts vs)
    | none      => throw (o.invalid "renderTargets" v)
  | ts, _ => return ts

/-- Overrides targets, when an array for them is there. -/
def TargetBlend.overrideIn (o : Overrides) (field : String) (old : List TargetBlend) :
    Except MaterialError (List TargetBlend) := do
  match ← o.array field with
  | some values => overrideEach o old values
  | none        => return old

def BlendState.override (s : BlendState) (json : JsonObject) : Except MaterialError BlendState := do
  let o : Overrides := ⟨"blend", json⟩
  return {
    alphaToCoverageEnable  := ← o.bool "alphaToCoverageEnable" s.alphaToCoverageEnable
    independentBlendEnable := ← o.bool "independentBlendEnable" s.independentBlendEnable
    targets                := ← TargetBlend.overrideIn o "renderTargets" s.targets }

instance : StateBlock BlendState := ⟨"blend", {}, BlendState.override⟩

/-! ### Render targets -/

/-- A format's name. -/
def TexelFormat.read (o : Overrides) (field : String) (v : Json) :
    Except MaterialError TexelFormat :=
  match v.text?.bind Spelled.ofName? with
  | some f => .ok f
  | none   => .error (o.invalid field v)

/-- A list of at most eight format names. -/
def TexelFormat.readList (o : Overrides) (field : String) (vs : List Json) :
    Except MaterialError (List TexelFormat) :=
  if vs.length > maxRenderTargets then
    .error (o.invalid field (.number (.integer vs.length)))
  else vs.mapM (TexelFormat.read o field)

/-- The list in a field, or the old one when the field is absent. -/
def TexelFormat.readIn (o : Overrides) (field : String) (old : List TexelFormat) :
    Except MaterialError (List TexelFormat) := do
  match ← o.array field with
  | some values => readList o field values
  | none        => return old

def RenderTargetState.override (s : RenderTargetState) (json : JsonObject) :
    Except MaterialError RenderTargetState := do
  let o : Overrides := ⟨"renderTarget", json⟩
  return {
    colorFormats  := ← TexelFormat.readIn o "rtvFormats" s.colorFormats
    depthFormat   := ← o.spelled "dsvFormat" s.depthFormat
    sampleCount   := ← o.natural "sampleCount" word32Bound s.sampleCount
    sampleQuality := ← o.natural "sampleQuality" word32Bound s.sampleQuality }

instance : StateBlock RenderTargetState := ⟨"renderTarget", {}, RenderTargetState.override⟩

/-! ### Vertex formats -/

/-- An attribute; one without an offset starts at `next`. -/
def VertexElement.read (next : Nat) (v : Json) : Except MaterialError VertexElement := do
  let category := "vertexFormat"
  let some json := v.object?
    | throw (.invalidStateValue category "elements" v.compact)
  let o : Overrides := ⟨category, json⟩
  let some semantic := v.textField? "semantic"
    | throw (.missingField "vertex element" "semantic")
  let some format := v.field? "format"
    | throw (.missingField s!"vertex element '{semantic}'" "format")
  return {
    semantic      := semantic
    format        := ← TexelFormat.read o "format" format
    offset        := ← o.natural "offset" word32Bound next
    semanticIndex := ← o.natural "semanticIndex" word32Bound 0
    inputSlot     := ← o.natural "inputSlot" word32Bound 0 }

/-- Attributes, each without an offset starting where the one before it ends. -/
def VertexElement.readList (next : Nat) : List Json → Except MaterialError (List VertexElement)
  | []      => return []
  | v :: vs => do
    let e ← VertexElement.read next v
    return e :: (← readList e.finish vs)

/-- New attributes bring their packed size along as the stride, unless a stride is given. -/
def VertexFormat.override (s : VertexFormat) (json : JsonObject) :
    Except MaterialError VertexFormat := do
  let o : Overrides := ⟨"vertexFormat", json⟩
  let s ← match ← o.array "elements" with
    | some values => do
      let es ← VertexElement.readList 0 values
      pure { stride := packedSize es, elements := es : VertexFormat }
    | none        => pure s
  return { s with stride := ← o.natural "stride" word32Bound s.stride }

instance : StateBlock VertexFormat := ⟨"vertexFormat", {}, VertexFormat.override⟩

end RenderMaterials
