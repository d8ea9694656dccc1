import RenderMaterials.Error
import RenderMaterials.Text.Utf8

/-!
# Sources

A store of files that documents and shaders are read from.
-/

namespace RenderMaterials

/-- What a source answers at one moment. -/
structure Source where
  /-- The contents of a file. -/
  read : String → Except MaterialError Bytes
  /-- Whether a file is there. -/
  contains : String → Bool
  /-- The place of a file as messages name it. -/
  describe : String → String := id
  /-- No more than this many canonical paths can be read. -/
  size : Nat

namespace Source

/-- The contents of a file as text. -/
def readText (src : Source) (path : String) : Except MaterialError String := do
  let bytes ← src.read path
  match Text.decodeUtf8 bytes with
  | .ok text     => return text
  | .error fault =>
    throw (.invalidDocument (src.describe path) s!"not valid UTF-8: {fault.message}")

end Source

end RenderMaterials
