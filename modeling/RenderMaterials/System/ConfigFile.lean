import RenderMaterials.Source.Disk
import RenderMaterials.System.Config
import RenderMaterials.Toml.Reader

/-!
# Configuration files

A configuration as the table of a TOML document.  Missing keys keep their defaults and unknown ones
say nothing; a value of the wrong kind is an error.
-/

namespace RenderMaterials

namespace Toml

def text? : Toml → Option String
  | text s => some s
  | _      => none

def boolean? : Toml → Option Bool
  | boolean b => some b
  | _         => none

/-- Whether a value is an array or a table without content. -/
def isEmpty : Toml → Bool
  | array _ items => items.isEmpty
  | table _ es    => es.isEmpty
  | _             => false

/-- The enumerator that a value names: a text does, or a table whose only key has an empty value. -/
def enumerator? {α : Type} [Spelled α] : Toml → Option α
  | text s           => Spelled.ofName? s
  | table _ [(k, v)] => if v.isEmpty then Spelled.ofName? k else none
  | _                => none

end Toml

namespace SystemConfig

/-- What `read` makes of a key, or the old value when the key is missing. -/
def field {α : Type} (t : Toml.Entries) (key : String) (read : Toml → Option α) (old : α) :
    Except MaterialError α :=
  match t.value? key with
  | none   => .ok old
  | some v =>
    match read v with
    | some a => .ok a
    | none   => .error (.configuration s!"invalid value for '{key}'")

/-- The configuration of a table. -/
def ofTable (t : Toml.Entries) : Except MaterialError SystemConfig := do
  let c : SystemConfig := {}
  return {
    shaderRoot   := ← field t "shader_root" Toml.text? c.shaderRoot
    duplicateIds := ← field t "duplicate_ids" Toml.enumerator? c.duplicateIds
    skipInvalid  := ← field t "skip_invalid_materials" Toml.boolean? c.skipInvalid
    fallback?    := ← field t "fallback_material" (fun v => v.text?.map some) c.fallback?
    hotReload    := ← field t "hot_reload" Toml.boolean? c.hotReload
    validate     := ← field t "validate_on_load" Toml.boolean? c.validate }

/-- The configuration that a text spells. -/
def read (s : String) : Except MaterialError SystemConfig :=
  match Toml.read? s with
  | some t => ofTable t
  | none   => .error (.configuration "not well-formed")

/-- The configuration in a file of a tree. -/
def load (d : Disk) (path : String) : Except MaterialError SystemConfig := do
  let bytes ← (d.read path).mapError (DiskFault.toError path)
  match Text.decodeUtf8 bytes with
  | .ok text => read text
  | .error _ => throw (.io path "stream did not contain valid UTF-8")

end SystemConfig

end RenderMaterials
