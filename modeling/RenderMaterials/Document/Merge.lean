import RenderMaterials.Document.Basic

/-!
# Merging

Fields of a later object are merged into an earlier one: arrays are put one after the other, objects
are united with the later value winning, and in every other case the later value replaces the
earlier one.  The key of includes is never merged.
-/

namespace RenderMaterials

namespace JsonObject

/-- The fields of both, a later value winning. -/
def union (earlier later : JsonObject) : JsonObject :=
  later.foldl (fun t e => t.assign e.1 e.2) earlier

end JsonObject

namespace Document

/-- What a later value of a key makes of the earlier one. -/
def mergeValue : Option Json → Json → Json
  | some (.array xs),  .array ys  => .array (xs ++ ys)
  | some (.object xs), .object ys => .object (JsonObject.union xs ys)
  | _,                 v          => v

/-- Merges one field. -/
def mergeField (target : JsonObject) (e : String × Json) : JsonObject :=
  if e.1 = includesKey then target
  else target.assign e.1 (mergeValue (target.value? e.1) e.2)

/-- Merges the fields of an object in order. -/
def merge (target later : JsonObject) : JsonObject := later.foldl mergeField target

/-- A document with one more file. -/
def mergeFile (d : Document) (path : String) (content : JsonObject) : Document :=
  ⟨merge d.root content, d.files ++ [path]⟩

end Document

end RenderMaterials
