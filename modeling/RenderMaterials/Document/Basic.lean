import RenderMaterials.Json.Printer

/-!
# Documents

A root object together with the files that it was put together from, and the sections that the rest
of the library reads.  A section of another form than expected counts as missing.
-/

namespace RenderMaterials

/-- A merged document. -/
structure Document where
  root  : JsonObject := []
  /-- Canonical paths of the merged files, in the order of merging. -/
  files : List String := []

namespace Document

/-- The key of the files that a file includes; no merged document has it. -/
def includesKey : String := "includes"

/-- The items of a section that is an array. -/
def items (d : Document) (key : String) : List Json :=
  ((d.root.value? key).bind Json.array?).getD []

/-- The fields of a section that is an object. -/
def fields? (d : Document) (key : String) : Option JsonObject :=
  (d.root.value? key).bind Json.object?

def materials (d : Document) : List Json := d.items "materials"

def renderPasses (d : Document) : List Json := d.items "renderPasses"

/-- State blocks by category. -/
def states? (d : Document) : Option JsonObject := d.fields? "states"

/-- Shader libraries by stage. -/
def shaders? (d : Document) : Option JsonObject := d.fields? "shaders"

/-- Defines of all shaders. -/
def defines? (d : Document) : Option JsonObject := d.fields? "defines"

/-- The root object in the indented form. -/
def pretty (d : Document) : String := (Json.object d.root).pretty

end Document

end RenderMaterials
