import RenderMaterials.Spelled

/-!
# Fixed-function vocabulary

The enumerations that state blocks are made of, with the names that documents use for them.
-/

namespace RenderMaterials

inductive FillMode where
  | solid | wireframe
  deriving DecidableEq, Repr, Inhabited

instance : Spelled FillMode where
  all := [.solid, .wireframe]
  name
    | .solid     => "Solid"
    | .wireframe => "Wireframe"
  complete a := by cases a <;> decide
  injective a b := by cases a <;> cases b <;> decide

inductive CullMode where
  | none | front | back
  deriving DecidableEq, Repr, Inhabited

instance : Spelled CullMode where
  all := [.none, .front, .back]
  name
    | .none  => "None"
    | .front => "Front"
    | .back  => "Back"
  complete a := by cases a <;> decide
  injective a b := by cases a <;> cases b <;> decide

inductive DepthWriteMask where
  | zero | all
  deriving DecidableEq, Repr, Inhabited

instance : Spelled DepthWriteMask where
  all := [.zero, .all]
  name
    | .zero => "Zero"
    | .all  => "All"
  complete a := by cases a <;> decide
  injective a b := by cases a <;> cases b <;> decide

inductive Comparison where
  | never | less | equal | lessEqual | greater | notEqual | greaterEqual | always
  deriving DecidableEq, Repr, Inhabited

instance : Spelled Comparison where
  all := [.never, .less, .equal, .lessEqual, .greater, .notEqual, .greaterEqual, .always]
  name
    | .never        => "Never"
    | .less         => "Less"
    | .equal        => "Equal"
    | .lessEqual    => "LessEqual"
    | .greater      => "Greater"
    | .notEqual     => "NotEqual"
    | .greaterEqual => "GreaterEqual"
    | .always       => "Always"
  complete a := by cases a <;> decide
  injective a b := by cases a <;> cases b <;> decide

inductive StencilOp where
  | keep | zero | replace | incrementClamped | decrementClamped | invert | increment | decrement
  deriving DecidableEq, Repr, Inhabited

instance : Spelled StencilOp where
  all := [.keep, .zero, .replace, .incrementClamped, .decrementClamped, .invert, .increment,
    .decrement]
  name
    | .keep             => "Keep"
    | .zero             => "Zero"
    | .replace          => "Replace"
    | .incrementClamped => "IncrSat"
    | .decrementClamped => "DecrSat"
    | .invert           => "Invert"
    | .increment        => "Incr"
    | .decrement        => "Decr"
  complete a := by cases a <;> decide
  injective a b := by cases a <;> cases b <;> decide

inductive BlendFactor where
  | zero | one
  | srcColor | invSrcColor | srcAlpha | invSrcAlpha
  | destAlpha | invDestAlpha | destColor | invDestColor
  | srcAlphaSat | blendFactor | invBlendFactor
  | src1Color | invSrc1Color | src1Alpha | invSrc1Alpha
  deriving DecidableEq, Repr, Inhabited

instance : Spelled BlendFactor where
  all := [.zero, .one, .srcColor, .invSrcColor, .srcAlpha, .invSrcAlpha, .destAlpha, .invDestAlpha,
    .destColor, .invDestColor, .srcAlphaSat, .blendFactor, .invBlendFactor, .src1Color,
    .invSrc1Color, .src1Alpha, .invSrc1Alpha]
  name
    | .zero           => "Zero"
    | .one            => "One"
    | .srcColor       => "SrcColor"
    | .invSrcColor    => "InvSrcColor"
    | .srcAlpha       => "SrcAlpha"
    | .invSrcAlpha    => "InvSrcAlpha"
    | .destAlpha      => "DestAlpha"
    | .invDestAlpha   => "InvDestAlpha"
    | .destColor      => "DestColor"
    | .invDestColor   => "InvDestColor"
    | .srcAlphaSat    => "SrcAlphaSat"
    | .blendFactor    => "BlendFactor"
    | .invBlendFactor => "InvBlendFactor"
    | .src1Color      => "Src1Color"
    | .invSrc1Color   => "InvSrc1Color"
    | .src1Alpha      => "Src1Alpha"
    | .invSrc1Alpha   => "InvSrc1Alpha"
  complete a := by cases a <;> decide
  injective a b := by cases a <;> cases b <;> decide

inductive BlendOp where
  | add | subtract | revSubtract | min | max
  deriving DecidableEq, Repr, Inhabited

instance : Spelled BlendOp where
  all := [.add, .subtract, .revSubtract, .min, .max]
  name
    | .add         => "Add"
    | .subtract    => "Subtract"
    | .revSubtract => "RevSubtract"
    | .min         => "Min"
    | .max         => "Max"
  complete a := by cases a <;> decide
  injective a b := by cases a <;> cases b <;> decide

inductive LogicOp where
  | clear | set | copy | copyInverted | noop | invert | and | nand | or | nor | xor | equiv
  | andReverse | andInverted | orReverse | orInverted
  deriving DecidableEq, Repr, Inhabited

instance : Spelled LogicOp where
  all := [.clear, .set, .copy, .copyInverted, .noop, .invert, .and, .nand, .or, .nor, .xor, .equiv,
    .andReverse, .andInverted, .orReverse, .orInverted]
  name
    | .clear        => "Clear"
    | .set          => "Set"
    | .copy         => "Copy"
    | .copyInverted => "CopyInverted"
    | .noop         => "Noop"
    | .invert       => "Invert"
    | .and          => "And"
    | .nand         => "Nand"
    | .or           => "Or"
    | .nor          => "Nor"
    | .xor          => "Xor"
    | .equiv        => "Equiv"
    | .andReverse   => "AndReverse"
    | .andInverted  => "AndInverted"
    | .orReverse    => "OrReverse"
    | .orInverted   => "OrInverted"
  complete a := by cases a <;> decide
  injective a b := by cases a <;> cases b <;> decide

/-- Formats of textures and vertex attributes. -/
inductive TexelFormat where
  | unknown
  | r8g8b8a8Unorm | r8g8b8a8UnormSrgb | b8g8r8a8Unorm
  | r16g16b16a16Float | r32g32b32a32Float | r10g10b10a2Unorm | r11g11b10Float
  | d32Float | d24UnormS8Uint | d16Unorm
  | r32g32b32Float | r32g32Float | r32Float
  deriving DecidableEq, Repr, Inhabited

instance : Spelled TexelFormat where
  all := [.unknown, .r8g8b8a8Unorm, .r8g8b8a8UnormSrgb, .b8g8r8a8Unorm, .r16g16b16a16Float,
    .r32g32b32a32Float, .r10g10b10a2Unorm, .r11g11b10Float, .d32Float, .d24UnormS8Uint, .d16Unorm,
    .r32g32b32Float, .r32g32Float, .r32Float]
  name
    | .unknown           => "UNKNOWN"
    | .r8g8b8a8Unorm     => "R8G8B8A8_UNORM"
    | .r8g8b8a8UnormSrgb => "R8G8B8A8_UNORM_SRGB"
    | .b8g8r8a8Unorm     => "B8G8R8A8_UNORM"
    | .r16g16b16a16Float => "R16G16B16A16_FLOAT"
    | .r32g32b32a32Float => "R32G32B32A32_FLOAT"
    | .r10g10b10a2Unorm  => "R10G10B10A2_UNORM"
    | .r11g11b10Float    => "R11G11B10_FLOAT"
    | .d32Float          => "D32_FLOAT"
    | .d24UnormS8Uint    => "D24_UNORM_S8_UINT"
    | .d16Unorm          => "D16_UNORM"
    | .r32g32b32Float    => "R32G32B32_FLOAT"
    | .r32g32Float       => "R32G32_FLOAT"
    | .r32Float          => "R32_FLOAT"
  complete a := by cases a <;> decide
  injective a b := by cases a <;> cases b <;> decide

namespace TexelFormat

/-- The bytes of one element. -/
def byteSize : TexelFormat → Nat
  | unknown           => 0
  | d16Unorm          => 2
  | r8g8b8a8Unorm     => 4
  | r8g8b8a8UnormSrgb => 4
  | b8g8r8a8Unorm     => 4
  | r10g10b10a2Unorm  => 4
  | r11g11b10Float    => 4
  | d32Float          => 4
  | d24UnormS8Uint    => 4
  | r32Float          => 4
  | r16g16b16a16Float => 8
  | r32g32Float       => 8
  | r32g32b32Float    => 12
  | r32g32b32a32Float => 16

/-- Whether elements hold a depth. -/
def isDepth : TexelFormat → Bool
  | d32Float       => true
  | d24UnormS8Uint => true
  | d16Unorm       => true
  | _              => false

end TexelFormat

/-- Which colour channels are written. -/
structure ColorWriteMask where
  bits : BitVec 4
  deriving DecidableEq, Repr

namespace ColorWriteMask

def none : ColorWriteMask := ⟨0⟩

def red : ColorWriteMask := ⟨1⟩

def green : ColorWriteMask := ⟨2⟩

def blue : ColorWriteMask := ⟨4⟩

def alpha : ColorWriteMask := ⟨8⟩

def all : ColorWriteMask := ⟨15⟩

/-- The channels of either mask. -/
def union (a b : ColorWriteMask) : ColorWriteMask := ⟨a.bits ||| b.bits⟩

/-- The mask that a channel name stands for. -/
def ofChannel? : String → Option ColorWriteMask
  | "Red"   => some red
  | "Green" => some green
  | "Blue"  => some blue
  | "Alpha" => some alpha
  | "All"   => some all
  | "None"  => some none
  | _       => Option.none

end ColorWriteMask

end RenderMaterials
