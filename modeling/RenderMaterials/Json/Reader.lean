import RenderMaterials.Json.Value
import RenderMaterials.Text.Split

/-!
# Reading JSON

The strict grammar: no comments, no trailing commas, no control characters in strings, no lone
surrogates, nothing but blanks around the value, and at most 127 containers inside one another.

A binary number is read from its digits in two steps.  Digits collect in a 64-bit word; those that
no longer fit are dropped; those in front of the point count as powers of ten.  The word is rounded
to a binary number, which is then multiplied or divided by the binary number nearest to the power of
ten, with one more rounding.
-/

namespace RenderMaterials.Json.Reader

/-- The deepest nesting. -/
def maxDepth : Nat := 127

/-- The largest word that collects digits. -/
def maxWord : Nat := Nat.pow 2 64 - 1

def isBlank (c : Char) : Bool := c = ' ' || c = '\n' || c = '\t' || c = '\r'

def skipBlanks (cs : List Char) : List Char := cs.dropWhile isBlank

/-! ### Numbers -/

/-- Digits collected so far: their word, and how many more were dropped. -/
structure Collected where
  word    : Nat := 0
  dropped : Nat := 0

/-- Collects one digit, or drops it once the word is full. -/
def Collected.push (c : Collected) (digit : Char) : Collected :=
  let w := c.word * 10 + (digit.toNat - 48)
  if c.dropped = 0 && w ≤ maxWord then { c with word := w } else { c with dropped := c.dropped + 1 }

/-- The magnitude of the product of two finite magnitudes. -/
def product (a b : Nat) : Nat :=
  Format.double.round ((Format.double.value a).mul (Format.double.value b))

/-- The magnitude of the quotient of two finite magnitudes. -/
def quotient (a b : Nat) : Nat :=
  Format.double.round ((Format.double.value a).div (Format.double.value b))

/-- The magnitude nearest to a power of ten. -/
def powerOfTen (n : Nat) : Nat := Format.double.round (Ratio.ofNat (Nat.pow 10 n))

/-- Divides a magnitude by a power of ten, at most 308 of its zeros at a time. -/
def scaleDown (m n : Nat) : Nat :=
  if m = 0 then 0
  else if n ≤ 308 then quotient m (powerOfTen n)
  else scaleDown (quotient m (powerOfTen 308)) (n - 308)
termination_by n

/-- Multiplies a magnitude by a power of ten; `none` when the result is not finite. -/
def scaleUp (m n : Nat) : Option Nat :=
  if n ≤ 308 then
    let p := product m (powerOfTen n)
    if p = Format.double.infinity then none else some p
  else if m = 0 then some 0
  else none

/-- The binary number that a word and an exponent of ten stand for. -/
def binary? (negative : Bool) (word : Nat) (exponent : Int) : Option JsonNumber := do
  let m := Format.double.round (Ratio.ofNat word)
  let m ← if 0 ≤ exponent then scaleUp m exponent.toNat else some (scaleDown m (-exponent).toNat)
  return .binary (.ofMagnitude negative m)

/-- The largest exponent that is read exactly. -/
def maxExponent : Nat := Nat.pow 2 31 - 1

/-- An exponent of ten, read after its mark, added to one counted before. -/
def exponent? (negative : Bool) (word : Nat) (counted : Int) (cs : List Char) :
    Option (JsonNumber × List Char) := do
  let (minus, cs) := match cs with
    | '+' :: r => (false, r)
    | '-' :: r => (true, r)
    | r        => (false, r)
  let digits := cs.takeWhile Char.isDigit
  let rest := cs.dropWhile Char.isDigit
  if digits = [] then none
  let e := digits.foldl (fun e d => e * 10 + (d.toNat - 48)) 0
  if e > maxExponent then
    if word ≠ 0 && !minus then none
    return (.binary (.ofMagnitude negative 0), rest)
  let total : Int := if minus then counted - e else counted + e
  let total := max (-Int.pow 2 31) (min (maxExponent : Int) total)
  return (← binary? negative word total, rest)

/-- A number, read after its sign. -/
def number? (negative : Bool) (cs : List Char) : Option (JsonNumber × List Char) := do
  let digits := cs.takeWhile Char.isDigit
  let rest := cs.dropWhile Char.isDigit
  if digits = [] || (digits.head? = some '0' && digits.length > 1) then none
  let whole := digits.foldl Collected.push {}
  match rest with
  | '.' :: r =>
    let places := r.takeWhile Char.isDigit
    let r := r.dropWhile Char.isDigit
    if places = [] then none
    let all := places.foldl Collected.push { word := whole.word }
    let counted : Int := whole.dropped + all.dropped - places.length
    match r with
    | 'e' :: r | 'E' :: r => exponent? negative all.word counted r
    | r                   => return (← binary? negative all.word counted, r)
  | 'e' :: r | 'E' :: r => exponent? negative whole.word whole.dropped r
  | r =>
    if whole.dropped ≠ 0 then return (← binary? negative whole.word whole.dropped, r)
    else if !negative then return (.integer whole.word, r)
    else if whole.word = 0 || whole.word > Nat.pow 2 63 then
      return (.binary (.ofMagnitude true (Format.double.round (Ratio.ofNat whole.word))), r)
    else return (.integer (-whole.word), r)

/-! ### Strings -/

def hexValue? (c : Char) : Option Nat :=
  if '0' ≤ c && c ≤ '9' then some (c.toNat - 48)
  else if 'a' ≤ c && c ≤ 'f' then some (c.toNat - 87)
  else if 'A' ≤ c && c ≤ 'F' then some (c.toNat - 55)
  else none

def hexQuad? (a b c d : Char) : Option Nat := do
  return (((← hexValue? a) * 16 + (← hexValue? b)) * 16 + (← hexValue? c)) * 16 + (← hexValue? d)

/-- The character of an escape of one letter. -/
def escaped? : Char → Option Char
  | '"'  => some '"'
  | '\\' => some '\\'
  | '/'  => some '/'
  | 'b'  => some '\x08'
  | 'f'  => some '\x0c'
  | 'n'  => some '\n'
  | 'r'  => some '\r'
  | 't'  => some '\t'
  | _    => none

/-- The characters of a string, read after its opening quote. -/
def string? : List Char → Option (List Char × List Char)
  | '"' :: rest => some ([], rest)
  | '\\' :: 'u' :: a :: b :: c :: d :: rest => do
    let n ← hexQuad? a b c d
    if 0xD800 ≤ n && n < 0xDC00 then
      match rest with
      | '\\' :: 'u' :: e :: f :: g :: h :: rest => do
        let m ← hexQuad? e f g h
        if 0xDC00 ≤ m && m < 0xE000 then
          let (s, rest) ← string? rest
          return (Char.ofNat (0x10000 + (n - 0xD800) * 1024 + (m - 0xDC00)) :: s, rest)
        else none
      | _ => none
    else if 0xDC00 ≤ n && n < 0xE000 then none
    else
      let (s, rest) ← string? rest
      return (Char.ofNat n :: s, rest)
  | '\\' :: c :: rest => do
    let e ← escaped? c
    let (s, rest) ← string? rest
    return (e :: s, rest)
  | c :: rest =>
    if c < ' ' || c = '\\' then none
    else do
      let (s, rest) ← string? rest
      return (c :: s, rest)
  | [] => none

/-! ### Values -/

mutual

/-- A value that starts at the next character, with `depth` more containers allowed. -/
def value? : (fuel depth : Nat) → List Char → Option (Json × List Char)
  | 0,        _,     _ => none
  | fuel + 1, depth, cs =>
    match cs with
    | 'n' :: r => do return (.null, ← Text.after? ['u', 'l', 'l'] r)
    | 't' :: r => do return (.bool true, ← Text.after? ['r', 'u', 'e'] r)
    | 'f' :: r => do return (.bool false, ← Text.after? ['a', 'l', 's', 'e'] r)
    | '"' :: r => do
      let (s, r) ← string? r
      return (.text (String.ofList s), r)
    | '-' :: r => do
      let (n, r) ← number? true r
      return (.number n, r)
    | '[' :: r =>
      if depth = 0 then none
      else match skipBlanks r with
        | ']' :: r => some (.array [], r)
        | r        => do
          let (items, r) ← items? fuel (depth - 1) r
          return (.array items, r)
    | '{' :: r =>
      if depth = 0 then none
      else match skipBlanks r with
        | '}' :: r => some (.object [], r)
        | r        => do
          let (fields, r) ← fields? fuel (depth - 1) r
          return (.object (Table.ofPairs fields), r)
    | r => do
      let (n, r) ← number? false r
      return (.number n, r)

/-- One or more items and the bracket that closes them. -/
def items? : (fuel depth : Nat) → List Char → Option (List Json × List Char)
  | 0,        _,     _ => none
  | fuel + 1, depth, cs => do
    let (v, r) ← value? fuel depth cs
    match skipBlanks r with
    | ']' :: r => return ([v], r)
    | ',' :: r =>
      let (vs, r) ← items? fuel depth (skipBlanks r)
      return (v :: vs, r)
    | _ => none

/-- One or more fields and the brace that closes them. -/
def fields? : (fuel depth : Nat) → List Char → Option (List (String × Json) × List Char)
  | 0,        _,     _ => none
  | fuel + 1, depth, cs =>
    match cs with
    | '"' :: r => do
      let (key, r) ← string? r
      match skipBlanks r with
      | ':' :: r =>
        let (v, r) ← value? fuel depth (skipBlanks r)
        let entry := (String.ofList key, v)
        match skipBlanks r with
        | '}' :: r => return ([entry], r)
        | ',' :: r =>
          let (es, r) ← fields? fuel depth (skipBlanks r)
          return (entry :: es, r)
        | _ => none
      | _ => none
    | _ => none

end

end Reader

/-- The value that a text spells. -/
def read? (s : String) : Option Json :=
  let cs := s.toList
  match Reader.value? (2 * cs.length + 2) Reader.maxDepth (Reader.skipBlanks cs) with
  | some (v, rest) => if Reader.skipBlanks rest = [] then some v else none
  | none           => none

end RenderMaterials.Json
