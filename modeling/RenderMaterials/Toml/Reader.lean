import RenderMaterials.Toml.Scalar
import RenderMaterials.Toml.Value

/-!
# Reading TOML

The grammar of version 1.0, with at most 79 arrays and tables inside one another and at most 79
names in a key.
-/

namespace RenderMaterials.Toml

/-- The deepest nesting, and the longest key. -/
def maxDepth : Nat := 79

/-! ### Keys -/

/-- Characters of keys without quotes. -/
def isKeyChar (c : Char) : Bool := c.isAlphanum || c = '_' || c = '-'

/-- One name of a key. -/
def name? (cs : List Char) : Option (String × List Char) :=
  match cs with
  | '"' :: r  => (basic? r).map fun p => (String.ofList p.1, p.2)
  | '\'' :: r => (literal? r).map fun p => (String.ofList p.1, p.2)
  | cs        =>
    let name := cs.takeWhile isKeyChar
    if name = [] then none else some (String.ofList name, cs.dropWhile isKeyChar)

/-- The names of a key, with points and blanks between them and blanks around them. -/
def key? : (fuel : Nat) → List Char → Option (Path × List Char)
  | 0,        _  => none
  | fuel + 1, cs => do
    let (name, r) ← name? (skipBlanks cs)
    match skipBlanks r with
    | '.' :: r => do
      let (names, r) ← key? fuel r
      return (name :: names, r)
    | r => return ([name], r)

/-! ### Values -/

/-- What is left after blanks, line ends and comments. -/
def skipGap (comment : Bool) : List Char → List Char
  | '\n' :: r         => skipGap false r
  | '\r' :: '\n' :: r => skipGap false r
  | c :: r            =>
    if comment then if isPlain c then skipGap true r else c :: r
    else if isBlank c then skipGap false r
    else if c = '#' then skipGap true r
    else c :: r
  | [] => []

mutual

/-- A value that starts at the next character, with `depth` more levels allowed. -/
def value? : (fuel depth : Nat) → List Char → Option (Toml × List Char)
  | 0,        _,     _ => none
  | fuel + 1, depth, cs =>
    match cs with
    | '"' :: _ | '\'' :: _ => (string? cs).map fun p => (.text (String.ofList p.1), p.2)
    | 't' :: r => (Text.after? ['r', 'u', 'e'] r).map (.boolean true, ·)
    | 'f' :: r => (Text.after? ['a', 'l', 's', 'e'] r).map (.boolean false, ·)
    | '[' :: r =>
      if depth = 0 then none
      else do
        let (items, r) ← items? fuel (depth - 1) (skipGap false r)
        return (.array false items, r)
    | '{' :: r =>
      if depth = 0 then none
      else match skipBlanks r with
        | '}' :: r => some (.table .inline [], r)
        | r        => do
          let (assignments, r) ← assignments? fuel (depth - 1) r
          return (.table .inline (← ofAssignments? assignments), r)
    | cs =>
      match moment? cs with
      | some r => some (.moment, r)
      | none   => (number? cs).map (.number, ·)

/-- The items of an array and the bracket that closes it. -/
def items? : (fuel depth : Nat) → List Char → Option (List Toml × List Char)
  | 0,        _,     _ => none
  | fuel + 1, depth, cs =>
    match cs with
    | ']' :: r => some ([], r)
    | cs       => do
      let (v, r) ← value? fuel depth cs
      match skipGap false r with
      | ']' :: r => return ([v], r)
      | ',' :: r =>
        let (vs, r) ← items? fuel depth (skipGap false r)
        return (v :: vs, r)
      | _ => none

/-- One or more assignments of a table written out whole, and the brace that closes it. -/
def assignments? : (fuel depth : Nat) → List Char →
    Option (List (Path × String × Toml) × List Char)
  | 0,        _,     _ => none
  | fuel + 1, depth, cs => do
    let (key, r) ← key? (maxDepth) cs
    let r ← mark? '=' r
    let (v, r) ← value? fuel depth (skipBlanks r)
    let assignment := (key.dropLast, key.getLast?.getD "", v)
    match skipBlanks r with
    | '}' :: r => return ([assignment], r)
    | ',' :: r =>
      let (rest, r) ← assignments? fuel depth r
      return (assignment :: rest, r)
    | _ => none

end

/-! ### Documents -/

/-- What is left after the rest of a line that says no more. -/
def lineEnd? (cs : List Char) : Option (List Char) :=
  let r := match skipBlanks cs with
    | '#' :: r => r.dropWhile isPlain
    | r        => r
  if r = [] then some [] else newline? r

/-- The statement on a line, if it makes one. -/
def statement? (cs : List Char) : Option (Option Statement × List Char) :=
  match skipBlanks cs with
  | '[' :: '[' :: r => do
    let (path, r) ← key? maxDepth r
    return (some (.entry path), ← Text.after? [']', ']'] r)
  | '[' :: r => do
    let (path, r) ← key? maxDepth r
    return (some (.header path), ← mark? ']' r)
  | cs =>
    if cs = [] || cs.head? = some '#' || (newline? cs).isSome then some (none, cs)
    else do
      let (key, r) ← key? maxDepth cs
      let r ← mark? '=' r
      let (v, r) ← value? (2 * r.length + 2) maxDepth (skipBlanks r)
      return (some (.assign key.dropLast (key.getLast?.getD "") v), r)

/-- The statements of lines. -/
def statements? : (fuel : Nat) → List Char → Option (List Statement)
  | _,        [] => some []
  | 0,        _  => none
  | fuel + 1, cs => do
    let (s, r) ← statement? cs
    let ss ← statements? fuel (← lineEnd? r)
    return s.toList ++ ss

/-- The table that a document spells; a byte order mark in front does not count. -/
def read? (s : String) : Option Entries := do
  let cs := s.toList
  let cs := (mark? '\ufeff' cs).getD cs
  ofStatements? (← statements? (cs.length + 1) cs)

end RenderMaterials.Toml
