import RenderMaterials.Table

/-!
# TOML values

The values of TOML documents, and how the lines of a document define them.  A table can be reached
again under its name to put more into it, or not, by the way it came to be: tables that are written
out whole are closed, one with a header of its own gets no second header, and one that only dotted
keys made can be entered by dotted keys only.

Numbers and moments carry no value: nothing reads them.
-/

namespace RenderMaterials

namespace Toml

/-- How a table came to be. -/
inductive Origin where
  /-- Written out whole. -/
  | inline
  /-- Made on the way by a dotted key. -/
  | dotted
  /-- Made on the way by a header. -/
  | implied
  /-- By a header of its own, or the whole document. -/
  | header
  deriving DecidableEq, Repr

end Toml

/-- A value. -/
inductive Toml where
  | text (s : String)
  | boolean (b : Bool)
  | number
  | moment
  /-- `growing` arrays get an entry by each `[[header]]`. -/
  | array (growing : Bool) (items : List Toml)
  | table (origin : Toml.Origin) (entries : List (String × Toml))
  deriving Repr

namespace Toml

/-- The entries of a table. -/
abbrev Entries := Table String Toml

/-- A name of a value, outermost table first. -/
abbrev Path := List String

/-- One line of a document that says something. -/
inductive Statement where
  /-- `[path]`: what follows goes into a table. -/
  | header (path : Path)
  /-- `[[path]]`: what follows goes into a new entry of an array. -/
  | entry (path : Path)
  /-- `path.key = value`. -/
  | assign (path : Path) (key : String) (value : Toml)
  deriving Repr

/-! ### Reaching tables -/

/-- Changes the table at a header's path; for an array that is its last entry. -/
def within (f : Entries → Option Entries) : Path → Entries → Option Entries
  | [],      t => f t
  | k :: ks, t =>
    match t.value? k with
    | none => do return t.assign k (.table .implied (← within f ks []))
    | some (.table .inline _) => none
    | some (.table o es) => do return t.assign k (.table o (← within f ks es))
    | some (.array true items) =>
      match items.getLast? with
      | some (.table o es) => do
        return t.assign k (.array true (items.dropLast ++ [.table o (← within f ks es)]))
      | _ => none
    | some _ => none

/-- Changes the table at a dotted key's path. -/
def withinDotted (f : Entries → Option Entries) : Path → Entries → Option Entries
  | [],      t => f t
  | k :: ks, t =>
    match t.value? k with
    | none => do return t.assign k (.table .dotted (← withinDotted f ks []))
    | some (.table .dotted es)  => do return t.assign k (.table .dotted (← withinDotted f ks es))
    | some (.table .implied es) =>
      if ks = [] then none else do return t.assign k (.table .implied (← withinDotted f ks es))
    | some (.array true items) =>
      match items.getLast? with
      | some (.table o es) =>
        if ks = [] then none
        else do
          return t.assign k (.array true (items.dropLast ++ [.table o (← withinDotted f ks es)]))
      | _ => none
    | some _ => none

/-! ### Statements -/

/-- Puts a value under a new key. -/
def insertNew (key : String) (v : Toml) (t : Entries) : Option Entries :=
  if t.has key then none else some (t.assign key v)

/-- Puts a value under a dotted key. -/
def assignIn (path : Path) (key : String) (v : Toml) (t : Entries) : Option Entries :=
  withinDotted (insertNew key v) path t

/-- Gives a table its header. -/
def openTable (key : String) (t : Entries) : Option Entries :=
  match t.value? key with
  | none                       => some (t.assign key (.table .header []))
  | some (.table .implied es)  => some (t.assign key (.table .header es))
  | some _                     => none

/-- Adds an entry to an array. -/
def openEntry (key : String) (t : Entries) : Option Entries :=
  match t.value? key with
  | none                     => some (t.assign key (.array true [.table .header []]))
  | some (.array true items) => some (t.assign key (.array true (items ++ [.table .header []])))
  | some _                   => none

/-- Changes a table by its last name in the table around it. -/
def atLast (f : String → Entries → Option Entries) (path : Path) (t : Entries) : Option Entries :=
  match path.getLast? with
  | some key => within (f key) path.dropLast t
  | none     => none

/-- The document after one more statement; `current` is the path of the table that assignments go
to. -/
def follow (state : Path × Entries) (s : Statement) : Option (Path × Entries) :=
  let (current, t) := state
  match s with
  | .header path         => do return (path, ← atLast openTable path t)
  | .entry path          => do return (path, ← atLast openEntry path t)
  | .assign path key v   => do return (current, ← within (assignIn path key v) current t)

/-- The table that statements define together. -/
def ofStatements? (ss : List Statement) : Option Entries :=
  (ss.foldlM follow ([], [])).map Prod.snd

/-- The table written out whole with these assignments. -/
def ofAssignments? (as : List (Path × String × Toml)) : Option Entries :=
  as.foldlM (fun t a => assignIn a.1 a.2.1 a.2.2 t) []

end Toml

end RenderMaterials
