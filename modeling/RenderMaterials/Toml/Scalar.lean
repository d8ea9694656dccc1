import RenderMaterials.Json.Reader

/-!
# TOML scalars

Strings in their four forms, and the forms of numbers and moments.  A reader takes the characters
from where a scalar starts and gives what is left after it; `none` when there is no such scalar.
-/

namespace RenderMaterials.Toml

/-! ### Characters -/

/-- Blanks within a line. -/
def isBlank (c : Char) : Bool := c = ' ' || c = '\t'

def skipBlanks (cs : List Char) : List Char := cs.dropWhile isBlank

/-- Whether a character may stand in comments and strings: no control but the tab. -/
def isPlain (c : Char) : Bool := c = '\t' || (' ' ≤ c && c ≠ '\x7f')

/-- What is left after the end of a line. -/
def newline? : List Char → Option (List Char)
  | '\n' :: r         => some r
  | '\r' :: '\n' :: r => some r
  | _                 => none

/-! ### Strings -/

/-- The character of an escape of one letter. -/
def escaped? : Char → Option Char
  | 'b'  => some '\x08'
  | 't'  => some '\t'
  | 'n'  => some '\n'
  | 'f'  => some '\x0c'
  | 'r'  => some '\r'
  | '"'  => some '"'
  | '\\' => some '\\'
  | _    => none

/-- The character of a code point in hexadecimal. -/
def codePoint? (digits : List Char) : Option Char := do
  let n ← digits.foldlM (fun n d => (Json.Reader.hexValue? d).map (n * 16 + ·)) 0
  if n < 0xD800 || (0xE000 ≤ n && n < 0x110000) then some (Char.ofNat n) else none

/-- The characters of a basic string, read after its quote. -/
def basic? : List Char → Option (List Char × List Char)
  | '"' :: r => some ([], r)
  | '\\' :: 'u' :: a :: b :: c :: d :: r => do
    let x ← codePoint? [a, b, c, d]
    let (s, r) ← basic? r
    return (x :: s, r)
  | '\\' :: 'U' :: a :: b :: c :: d :: e :: f :: g :: h :: r => do
    let x ← codePoint? [a, b, c, d, e, f, g, h]
    let (s, r) ← basic? r
    return (x :: s, r)
  | '\\' :: c :: r => do
    let x ← escaped? c
    let (s, r) ← basic? r
    return (x :: s, r)
  | c :: r =>
    if isPlain c && c ≠ '\\' then do
      let (s, r) ← basic? r
      return (c :: s, r)
    else none
  | [] => none

/-- The characters of a literal string, read after its quote. -/
def literal? : List Char → Option (List Char × List Char)
  | '\'' :: r => some ([], r)
  | c :: r    =>
    if isPlain c then do
      let (s, r) ← literal? r
      return (c :: s, r)
    else none
  | [] => none

/-- The characters of a basic string of several lines, read after its quotes.  Up to two more quotes
may stand before those that close it.  `skipping` is on behind a backslash at the end of a line,
which takes all blanks and line ends after it. -/
def basicLines? (skipping : Bool) : List Char → Option (List Char × List Char)
  | '"' :: '"' :: '"' :: '"' :: '"' :: r => some (['"', '"'], r)
  | '"' :: '"' :: '"' :: '"' :: r        => some (['"'], r)
  | '"' :: '"' :: '"' :: r               => some ([], r)
  | '\\' :: 'u' :: a :: b :: c :: d :: r => do
    let x ← codePoint? [a, b, c, d]
    let (s, r) ← basicLines? false r
    return (x :: s, r)
  | '\\' :: 'U' :: a :: b :: c :: d :: e :: f :: g :: h :: r => do
    let x ← codePoint? [a, b, c, d, e, f, g, h]
    let (s, r) ← basicLines? false r
    return (x :: s, r)
  | '\\' :: c :: r =>
    if (newline? (skipBlanks (c :: r))).isSome then basicLines? true (c :: r)
    else do
      let x ← escaped? c
      let (s, r) ← basicLines? false r
      return (x :: s, r)
  | '\r' :: '\n' :: r =>
    if skipping then basicLines? true r
    else do
      let (s, r) ← basicLines? false r
      return ('\n' :: s, r)
  | c :: r =>
    if skipping && (isBlank c || c = '\n') then basicLines? true r
    else if c = '\n' || (isPlain c && c ≠ '\\') then do
      let (s, r) ← basicLines? false r
      return (c :: s, r)
    else none
  | [] => none

/-- The characters of a literal string of several lines, read after its quotes. -/
def literalLines? : List Char → Option (List Char × List Char)
  | '\'' :: '\'' :: '\'' :: '\'' :: '\'' :: r => some (['\'', '\''], r)
  | '\'' :: '\'' :: '\'' :: '\'' :: r         => some (['\''], r)
  | '\'' :: '\'' :: '\'' :: r                 => some ([], r)
  | '\r' :: '\n' :: r => do
    let (s, r) ← literalLines? r
    return ('\n' :: s, r)
  | c :: r =>
    if c = '\n' || isPlain c then do
      let (s, r) ← literalLines? r
      return (c :: s, r)
    else none
  | [] => none

/-- A string of several lines does not start with the end of the line that its quotes stand on. -/
def afterOpening (cs : List Char) : List Char := (newline? cs).getD cs

/-- The characters of a string in any form. -/
def string? : List Char → Option (List Char × List Char)
  | '"' :: '"' :: '"' :: r    => basicLines? false (afterOpening r)
  | '"' :: r                  => basic? r
  | '\'' :: '\'' :: '\'' :: r => literalLines? (afterOpening r)
  | '\'' :: r                 => literal? r
  | _                         => none

/-! ### Numbers -/

/-- Digits with single underscores between them, read after the first. -/
def moreDigits (isDigit : Char → Bool) : List Char → List Char × List Char
  | '_' :: c :: r =>
    if isDigit c then
      let (ds, r) := moreDigits isDigit r
      (c :: ds, r)
    else ([], '_' :: c :: r)
  | c :: r =>
    if isDigit c then
      let (ds, r) := moreDigits isDigit r
      (c :: ds, r)
    else ([], c :: r)
  | [] => ([], [])

/-- One or more digits with single underscores between them. -/
def digits? (isDigit : Char → Bool) : List Char → Option (List Char × List Char)
  | []     => none
  | c :: r =>
    if isDigit c then
      let (ds, r) := moreDigits isDigit r
      some (c :: ds, r)
    else none

/-- The natural of digits in a base. -/
def natural (base : Nat) (digits : List Char) : Nat :=
  digits.foldl (fun n d => n * base + (Json.Reader.hexValue? d).getD 0) 0

/-- Whether digits times a power of ten are beyond all finite binary numbers. -/
def overflows (digits : List Char) (exponent : Int) : Bool :=
  let n := natural 10 digits
  let places : Int := (digits.dropWhile (· = '0')).length
  if n = 0 || places + exponent ≤ 308 then false
  else if places + exponent > 309 then true
  else
    Format.double.round ((Ratio.ofNat n).mul (Ratio.pow 10 exponent)) = Format.double.infinity

/-- A sign, and whether it is minus. -/
def sign : List Char → Bool × List Char
  | '-' :: r => (true, r)
  | '+' :: r => (false, r)
  | r        => (false, r)

/-- The digits behind the point, if there is one. -/
def places? : List Char → Option (List Char × List Char)
  | '.' :: r => digits? Char.isDigit r
  | r        => some ([], r)

/-- The exponent of ten, if there is one. -/
def exponent? : List Char → Option (Option Int × List Char)
  | 'e' :: r | 'E' :: r => do
    let (minus, r) := sign r
    let (ds, r) ← digits? Char.isDigit r
    let n : Int := natural 10 ds
    return (some (if minus then -n else n), r)
  | r => some (none, r)

/-- The largest integer. -/
def maxInteger : Nat := Nat.pow 2 63 - 1

/-- What is left after an integer in another base than ten. -/
def based? (base : Nat) (isDigit : Char → Bool) (cs : List Char) : Option (List Char) := do
  let (ds, r) ← digits? isDigit cs
  if natural base ds ≤ maxInteger then some r else none

/-- What is left after a decimal number. -/
def decimal? (cs : List Char) : Option (List Char) := do
  let (minus, r) := sign cs
  let (whole, r) ← digits? Char.isDigit r
  if whole.head? = some '0' && whole.length > 1 then none
  let isWhole := r.head? ≠ some '.'
  let (places, r) ← places? r
  let (exponent, r) ← exponent? r
  if isWhole && exponent.isNone then
    if natural 10 whole ≤ maxInteger + (if minus then 1 else 0) then some r else none
  else if !minus && overflows (whole ++ places) (exponent.getD 0 - places.length) then none
  else some r

/-- What is left after a number. -/
def number? (cs : List Char) : Option (List Char) :=
  match cs with
  | '0' :: 'x' :: r => based? 16 (fun c => (Json.Reader.hexValue? c).isSome) r
  | '0' :: 'o' :: r => based? 8 (fun c => '0' ≤ c && c ≤ '7') r
  | '0' :: 'b' :: r => based? 2 (fun c => c = '0' || c = '1') r
  | cs              =>
    match (sign cs).2 with
    | 'i' :: 'n' :: 'f' :: r => some r
    | 'n' :: 'a' :: 'n' :: r => some r
    | _                      => decimal? cs

/-! ### Moments -/

/-- The natural of exactly `n` digits. -/
def fixed? (n : Nat) (cs : List Char) : Option (Nat × List Char) :=
  let ds := cs.take n
  if ds.length = n && ds.all Char.isDigit then some (natural 10 ds, cs.drop n) else none

/-- What is left after a character. -/
def mark? (c : Char) : List Char → Option (List Char)
  | d :: r => if c = d then some r else none
  | []     => none

/-- The number of days of a month. -/
def daysIn (year month : Nat) : Nat :=
  if month = 2 then
    if year % 4 = 0 && (year % 100 ≠ 0 || year % 400 = 0) then 29 else 28
  else if [4, 6, 9, 11].contains month then 30
  else 31

/-- What is left after a date. -/
def date? (cs : List Char) : Option (List Char) := do
  let (year, r) ← fixed? 4 cs
  let (month, r) ← fixed? 2 (← mark? '-' r)
  let (day, r) ← fixed? 2 (← mark? '-' r)
  if 1 ≤ month && month ≤ 12 && 1 ≤ day && day ≤ daysIn year month then some r else none

/-- What is left after an hour and a minute. -/
def minute? (cs : List Char) : Option (List Char) := do
  let (hour, r) ← fixed? 2 cs
  let (minute, r) ← fixed? 2 (← mark? ':' r)
  if hour < 24 && minute < 60 then some r else none

/-- What is left after a time of day. -/
def time? (cs : List Char) : Option (List Char) := do
  let r ← minute? cs
  let (second, r) ← fixed? 2 (← mark? ':' r)
  if second > 60 then none
  match r with
  | '.' :: r =>
    let rest := r.dropWhile Char.isDigit
    if rest.length < r.length then some rest else none
  | r => some r

/-- What is left after the offset from universal time, if there is one. -/
def offset? : List Char → Option (List Char)
  | 'Z' :: r | 'z' :: r => some r
  | '+' :: r | '-' :: r => minute? r
  | r                   => some r

/-- What is left after a date, a time of day or both. -/
def moment? (cs : List Char) : Option (List Char) :=
  match date? cs with
  | none   => time? cs
  | some r =>
    match r with
    | 'T' :: t | 't' :: t | ' ' :: t =>
      match time? t with
      | some r => offset? r
      | none   => some r
    | r => some r

end RenderMaterials.Toml
