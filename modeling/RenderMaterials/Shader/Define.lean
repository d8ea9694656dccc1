import RenderMaterials.Json.Printer
import RenderMaterials.Shader.Stage
import RenderMaterials.Text.Blank

/-!
# Defines

The names that shader sources are compiled with, as entries `NAME` and `NAME=VALUE`.

* `mem_toSet`: the sorted form of a list has the same entries.
* `environment`: what the names of a list stand for in a stage.
-/

namespace RenderMaterials.Define

/-- The entry of a field of a defines object; `false` declares none. -/
def ofField (e : String × Json) : Option String :=
  match e.2 with
  | .bool false => none
  | .bool true  => some e.1
  | .null       => some e.1
  | .text s     => if s = "" then some e.1 else some s!"{e.1}={s}"
  | v           => some s!"{e.1}={v.compact}"

/-- The entries of a defines object, sorted. -/
def ofObject (fields : JsonObject) : List String :=
  (fields.filterMap ofField).mergeSort (fun a b => !(b < a))

/-- Puts an entry in its place in a strictly sorted list, unless it is there. -/
def insert (d : String) : List String → List String
  | []      => [d]
  | e :: es => if d < e then d :: e :: es else if d = e then e :: es else e :: insert d es

/-- The entries of a list, sorted, none twice. -/
def toSet (ds : List String) : List String := ds.foldr insert []

theorem mem_insert (d e : String) (ds : List String) : d ∈ insert e ds ↔ d = e ∨ d ∈ ds := by
  induction ds with
  | nil => simp [insert]
  | cons f fs ih =>
      by_cases h : e < f
      · simp [insert, h]
      · by_cases h' : e = f
        · simp [insert, h']
        · simp [insert, h, h', ih, or_left_comm]

theorem mem_toSet (d : String) (ds : List String) : d ∈ toSet ds ↔ d ∈ ds := by
  induction ds with
  | nil => simp [toSet]
  | cons e es ih =>
      have : toSet (e :: es) = insert e (toSet es) := rfl
      simp [this, mem_insert, ih]

/-- The name and the value of an entry: all before and all behind the first `=`, without the blanks
around them. -/
def split (d : String) : String × String :=
  let name  := d.toList.takeWhile (· ≠ '=')
  let value := (d.toList.dropWhile (· ≠ '=')).drop 1
  (String.ofList (Text.trimChars name), String.ofList (Text.trimChars value))

/-- What names stand for in a stage: its own name in capitals for nothing, and each entry for its
value; the last entry of a name counts. -/
def environment (s : Stage) (ds : List String) : Table String String :=
  ds.foldl (fun t d => t.assign (split d).1 (split d).2) [(s.name.toUpper, "")]

end RenderMaterials.Define
