import RenderMaterials.State.Names
import RenderMaterials.Number.Binary
import RenderMaterials.Number.Word

/-!
# State blocks

The fixed-function states of a pipeline.  The field defaults are those of a block that says nothing.
-/

namespace RenderMaterials

structure RasterizerState where
  fillMode              : FillMode := .solid
  cullMode              : CullMode := .back
  frontCounterClockwise : Bool := false
  depthBias             : Int := 0
  depthBiasClamp        : Binary32 := .zero
  slopeScaledDepthBias  : Binary32 := .zero
  depthClipEnable       : Bool := true
  multisampleEnable     : Bool := false
  antialiasedLineEnable : Bool := false
  forcedSampleCount     : Nat := 0
  conservativeRaster    : Bool := false
  deriving DecidableEq, Repr

/-- The stencil operations of one side. -/
structure StencilFace where
  failOp      : StencilOp := .keep
  depthFailOp : StencilOp := .keep
  passOp      : StencilOp := .keep
  func        : Comparison := .always
  deriving DecidableEq, Repr

structure DepthStencilState where
  depthEnable      : Bool := true
  depthWriteMask   : DepthWriteMask := .all
  depthFunc        : Comparison := .less
  stencilEnable    : Bool := false
  stencilReadMask  : Nat := 0xFF
  stencilWriteMask : Nat := 0xFF
  frontFace        : StencilFace := {}
  backFace         : StencilFace := {}
  deriving DecidableEq, Repr

/-- How one render target is blended. -/
structure TargetBlend where
  blendEnable    : Bool := false
  logicOpEnable  : Bool := false
  srcBlend       : BlendFactor := .one
  destBlend      : BlendFactor := .zero
  blendOp        : BlendOp := .add
  srcBlendAlpha  : BlendFactor := .one
  destBlendAlpha : BlendFactor := .zero
  blendOpAlpha   : BlendOp := .add
  logicOp        : LogicOp := .noop
  writeMask      : ColorWriteMask := .all
  deriving DecidableEq, Repr

/-- The number of render targets that a pipeline can have. -/
def maxRenderTargets : Nat := 8

structure BlendState where
  alphaToCoverageEnable  : Bool := false
  independentBlendEnable : Bool := false
  targets                : List TargetBlend := List.replicate maxRenderTargets {}
  deriving DecidableEq, Repr

/-- Formats and sampling of the images that a pipeline renders to. -/
structure RenderTargetState where
  colorFormats  : List TexelFormat := []
  depthFormat   : TexelFormat := .unknown
  sampleCount   : Nat := 1
  sampleQuality : Nat := 0
  deriving DecidableEq, Repr

/-- One attribute of a vertex. -/
structure VertexElement where
  semantic      : String
  semanticIndex : Nat
  format        : TexelFormat
  offset        : Nat
  inputSlot     : Nat
  deriving DecidableEq, Repr

/-- The first byte after an attribute, as a number of 32 bits. -/
def VertexElement.finish (e : VertexElement) : Nat := addWord32 e.offset e.format.byteSize

/-- The attributes of a vertex, and the distance from one vertex to the next. -/
structure VertexFormat where
  stride   : Nat := 0
  elements : List VertexElement := []
  deriving DecidableEq, Repr

namespace VertexFormat

/-- The furthest end of an attribute. -/
def packedSize (es : List VertexElement) : Nat := (es.map VertexElement.finish).foldl max 0

/-- The name under which the format of materials without one is reported. -/
def fallbackName : String := "<fallback>"

/-- The format of materials that declare none: a position, then a colour. -/
def fallback : VertexFormat where
  stride := 28
  elements :=
    [{ semantic := "POSITION", semanticIndex := 0, format := .r32g32b32Float, offset := 0,
       inputSlot := 0 },
     { semantic := "COLOR", semanticIndex := 0, format := .r32g32b32a32Float, offset := 12,
       inputSlot := 0 }]

end VertexFormat

end RenderMaterials
