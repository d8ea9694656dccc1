import RenderMaterials.Number.Binary

/-!
# Shortest decimals

The fewest digits that read back as a given number of the eight-byte format; among those the nearest
to it, a tie going to the even digit.  `Layout` holds what a written format decides about them.
-/

namespace RenderMaterials.Decimal

/-- The digits of a positive number, most significant first, and the exponent of the first. -/
structure Digits where
  digits   : List Nat
  exponent : Int
  deriving DecidableEq, Repr

/-- The decimal digits of a natural. -/
def digitsOf (n : Nat) : List Nat := (Nat.toDigits 10 n).map (fun c => c.toNat - 48)

/-- The ends of the reals that round to a positive finite number, and whether they are included. -/
def interval (magnitude : Nat) : Ratio × Ratio × Bool :=
  let (m, e) := Format.double.decode magnitude
  let quarter := Ratio.pow 2 (e - 2)
  let below := if m = Format.double.unit && e > Format.double.least then 1 else 2
  ((Ratio.ofNat (4 * m - below)).mul quarter, (Ratio.ofNat (4 * m + 2)).mul quarter, m % 2 = 0)

/-- Whether a ratio lies between two ends. -/
def between (low high : Ratio) (closed : Bool) (a : Ratio) : Bool :=
  if closed then low.le a && a.le high else !(a.le low) && !(high.le a)

/-- The exponent of the largest power of ten that is not above a positive ratio. -/
def log10 (a : Ratio) : Int :=
  let start := a.log2 * 30103 / 100000 - 1
  let step (k : Int) : Int := if (Ratio.pow 10 (k + 1)).le a then k + 1 else k
  step (step (step start))

/-- The neighbour of a ratio on the grid of multiples of `10 ^ s` that reads back, if one does: of
two the nearer, of two equally near the even one. -/
def onGrid (a low high : Ratio) (closed : Bool) (s : Int) : Option Nat :=
  let grid := Ratio.pow 10 s
  let scaled := a.div grid
  let c := scaled.floor
  let reads (n : Nat) : Bool := n ≠ 0 && between low high closed ((Ratio.ofNat n).mul grid)
  let near := scaled.roundEven
  let far := if near = c then c + 1 else c
  if reads near then some near else if reads far then some far else none

/-- The shortest decimal of a positive finite number. -/
def shortest (magnitude : Nat) : Digits :=
  let a := Format.double.value magnitude
  let (low, high, closed) := interval magnitude
  let k := log10 a
  let found := (List.range 17).findSome? fun (n : Nat) =>
    (onGrid a low high closed (k - n)).map fun c => (c, k - n)
  let (c, s) := found.getD (0, 0)
  let ds := digitsOf c
  let kept := (ds.reverse.dropWhile (· = 0)).reverse
  ⟨kept, s + (ds.length - 1 : Nat)⟩

/-- The decisions of a written format. -/
structure Layout where
  /-- The least exponent written positionally. -/
  least : Int
  /-- The greatest exponent written positionally. -/
  greatest : Int
  /-- What stands in front of a positive exponent. -/
  plus : String
  deriving DecidableEq, Repr

/-- Digits as text. -/
def digitText (ds : List Nat) : String := String.ofList (ds.map (fun d => Char.ofNat (48 + d)))

def zeros (n : Nat) : String := String.ofList (List.replicate n '0')

/-- Writes digits: positionally with at least one place, or with an exponent. -/
def Layout.write (l : Layout) (d : Digits) : String :=
  if l.least ≤ d.exponent && d.exponent ≤ l.greatest then
    if d.exponent < 0 then "0." ++ zeros (-d.exponent - 1).toNat ++ digitText d.digits
    else
      let whole := d.exponent.toNat + 1
      let front := digitText (d.digits.take whole) ++ zeros (whole - d.digits.length)
      let places := d.digits.drop whole
      front ++ "." ++ (if places = [] then "0" else digitText places)
  else
    let places := d.digits.drop 1
    let mark := if d.exponent < 0 then "e-" else "e" ++ l.plus
    digitText (d.digits.take 1) ++ (if places = [] then "" else "." ++ digitText places)
      ++ mark ++ toString d.exponent.natAbs

/-- A number as a format writes it. -/
def Layout.writeNumber (l : Layout) (x : Binary64) : String :=
  (if x.isNegative then "-" else "") ++
    (if x.magnitude = 0 then "0.0" else l.write (shortest x.magnitude))

end RenderMaterials.Decimal
