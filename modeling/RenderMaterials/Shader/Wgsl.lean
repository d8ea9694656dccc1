import RenderMaterials.Spirv.Entry
import RenderMaterials.Text.Split

/-!
# WGSL entry points

The part of WGSL that declares entry points without resources, one a line: vertex shaders that
return the origin, and pixel and compute shaders that do nothing.  Blanks and comments stand around
them.
-/

namespace RenderMaterials.Wgsl

/-- The language's blanks. -/
def isBlank (c : Char) : Bool :=
  (0x09 ≤ c.toNat && c.toNat ≤ 0x0D)
    || [0x20, 0x85, 0x200E, 0x200F, 0x2028, 0x2029].contains c.toNat

/-- Whether a character ends a comment. -/
def endsComment (c : Char) : Bool :=
  (0x0A ≤ c.toNat && c.toNat ≤ 0x0D) || [0x85, 0x2028, 0x2029].contains c.toNat

/-- The rest of a line from its first code on, and the number of characters before it.  `comment`
says whether the line starts inside a comment. -/
def skip (comment : Bool) (n : Nat) : List Char → Nat × List Char
  | []     => (n, [])
  | c :: r =>
    if comment then skip (!endsComment c) (n + 1) r
    else if c = '/' && r.head? = some '/' then skip true (n + 1) r
    else if isBlank c then skip false (n + 1) r
    else (n, c :: r)

/-- How an entry point is written: what stands before and behind its name. -/
structure Form where
  stage : ModuleStage
  lead  : String
  tail  : String
  body  : EntryBody

/-- The three forms. -/
def forms : List Form := [
  ⟨.vertex, "@vertex fn ",
    "() -> @builtin(position) vec4<f32> \x7b return vec4<f32>(); \x7d", .position⟩,
  ⟨.fragment, "@fragment fn ", "() \x7b\x7d", .nothing⟩,
  ⟨.compute, "@compute @workgroup_size(1) fn ", "() \x7b\x7d", .nothing⟩]

/-- Characters of names. -/
def isNameChar (c : Char) : Bool := c.isAlphanum || c = '_'

/-- Whether some characters are a name: not empty, no digit in front, and not reserved. -/
def isName (cs : List Char) : Bool :=
  match cs with
  | []             => false
  | ['_']          => false
  | '_' :: '_' :: _ => false
  | c :: _         => !c.isDigit && cs.all isNameChar

/-- An entry point with the place of its name, which is counted from 1. -/
structure Declared where
  point  : EntryPoint
  line   : Nat
  column : Nat
  deriving DecidableEq, Repr

/-- The entry point of a form that a line holds from a column on. -/
def ofForm? (line column : Nat) (cs : List Char) (f : Form) : Option Declared := do
  let rest ← Text.after? f.lead.toList cs
  let name := rest.takeWhile isNameChar
  let rest ← Text.after? f.tail.toList (rest.dropWhile isNameChar)
  if isName name && (skip false 0 rest).2 = [] then
    some ⟨⟨⟨String.ofList name, f.stage⟩, f.body⟩, line, column + f.lead.length⟩
  else none

/-- A place as reports show it. -/
def report (line column : Nat) : String := s!"{line}:{column}"

/-- The entry point on a line, if it holds code. -/
def readLine (n : Nat) (line : String) : Except String (Option Declared) :=
  match skip false 0 line.toList with
  | (_, [])           => .ok none
  | (before, c :: cs) =>
    match forms.findSome? (ofForm? n (before + 1) (c :: cs)) with
    | some d => .ok (some d)
    | none   => .error (report n (before + 1))

/-- The entry points on lines from number `n` on. -/
def readLines : Nat → List String → Except String (List Declared)
  | _, []      => .ok []
  | n, l :: ls => do
    let d? ← readLine n l
    return d?.toList ++ (← readLines (n + 1) ls)

/-- The first entry point whose name is taken by a later one, which comes first among those. -/
def redeclared? : List Declared → List Declared → Option Declared
  | _,    []      => none
  | seen, d :: ds =>
    match seen.find? (·.point.entry.name = d.point.entry.name) with
    | some first => some first
    | none       => redeclared? (seen ++ [d]) ds

/-- The entry points of a text. -/
def entryPoints (text : String) : Except String (List EntryPoint) := do
  let ds ← readLines 1 (Text.pieces (· = '\n') text)
  match redeclared? [] ds with
  | some d => throw (report d.line d.column)
  | none   => return ds.map Declared.point

end RenderMaterials.Wgsl
