/-!
# Binary floating point

Magnitudes of the two binary interchange formats as bit patterns, exact values as ratios of
naturals, and one rounding from a ratio to the nearest pattern, ties to the even one.  Arithmetic is
exact and rounded once.

* `Format.round`: the nearest magnitude, infinity from half a unit above the largest finite one.
* `Binary64`, `Binary32`: signed numbers of the two formats.
-/

namespace RenderMaterials

/-- A ratio of naturals with a positive denominator. -/
structure Ratio where
  num : Nat
  den : Nat
  deriving DecidableEq, Repr

namespace Ratio

def ofNat (n : Nat) : Ratio := ⟨n, 1⟩

def mul (a b : Ratio) : Ratio := ⟨a.num * b.num, a.den * b.den⟩

/-- The quotient, for a divisor that is not zero. -/
def div (a b : Ratio) : Ratio := ⟨a.num * b.den, a.den * b.num⟩

/-- A power of a base with an integer exponent. -/
def pow (base : Nat) (e : Int) : Ratio :=
  if 0 ≤ e then ⟨base.pow e.toNat, 1⟩ else ⟨1, base.pow (-e).toNat⟩

/-- The natural part. -/
def floor (a : Ratio) : Nat := a.num / a.den

def le (a b : Ratio) : Bool := a.num * b.den ≤ b.num * a.den

/-- The nearest natural, a half going to the even one. -/
def roundEven (a : Ratio) : Nat :=
  let q := a.num / a.den
  let r := a.num % a.den
  if 2 * r < a.den then q
  else if 2 * r > a.den then q + 1
  else if q % 2 = 0 then q else q + 1

/-- The exponent of the largest power of two that is not above a positive ratio. -/
def log2 (a : Ratio) : Int :=
  let e := (a.num.log2 : Int) - a.den.log2
  if (pow 2 e).le a then e else e - 1

end Ratio

/-- A binary interchange format: the bits of the significand, the leading one included, and the
exponent of the smallest positive number. -/
structure Format where
  precision : Nat
  least     : Int
  exponents : Nat
  deriving DecidableEq, Repr

namespace Format

/-- Eight bytes. -/
def double : Format := ⟨53, -1074, 11⟩

/-- Four bytes. -/
def single : Format := ⟨24, -149, 8⟩

/-- The weight of the lowest exponent bit in a pattern. -/
def unit (f : Format) : Nat := Nat.pow 2 (f.precision - 1)

/-- The pattern of infinity. -/
def infinity (f : Format) : Nat := (Nat.pow 2 f.exponents - 1) * f.unit

/-- The significand and exponent of a finite pattern: its value is `m · 2 ^ e`. -/
def decode (f : Format) (bits : Nat) : Nat × Int :=
  let e := bits / f.unit
  if e = 0 then (bits, f.least) else (f.unit + bits % f.unit, f.least + e - 1)

/-- The value of a finite pattern. -/
def value (f : Format) (bits : Nat) : Ratio :=
  let (m, e) := f.decode bits
  (Ratio.ofNat m).mul (Ratio.pow 2 e)

/-- The pattern nearest to a ratio. -/
def round (f : Format) (a : Ratio) : Nat :=
  if a.num = 0 then 0
  else
    let e := max f.least (a.log2 - (f.precision - 1))
    min f.infinity ((e - f.least).toNat * f.unit + (a.div (Ratio.pow 2 e)).roundEven)

end Format

/-- A number in the eight-byte format. -/
structure Binary64 where
  bits : UInt64
  deriving DecidableEq, Repr

namespace Binary64

/-- A number from its sign and the pattern of its magnitude. -/
def ofMagnitude (negative : Bool) (magnitude : Nat) : Binary64 :=
  ⟨UInt64.ofNat (if negative then Nat.pow 2 63 + magnitude else magnitude)⟩

/-- Whether the sign is minus; so it is for `-0.0`. -/
def isNegative (x : Binary64) : Bool := Nat.pow 2 63 ≤ x.bits.toNat

/-- The pattern without its sign. -/
def magnitude (x : Binary64) : Nat := x.bits.toNat % Nat.pow 2 63

/-- The number nearest to an integer. -/
def ofInt (n : Int) : Binary64 :=
  ofMagnitude (n < 0) (Format.double.round (Ratio.ofNat n.natAbs))

end Binary64

/-- A number in the four-byte format. -/
structure Binary32 where
  bits : UInt32
  deriving DecidableEq, Repr

namespace Binary32

def zero : Binary32 := ⟨0⟩

/-- The number nearest to one of the eight-byte format. -/
def ofBinary64 (x : Binary64) : Binary32 :=
  let m := if x.magnitude = Format.double.infinity then Format.single.infinity
    else Format.single.round (Format.double.value x.magnitude)
  ⟨UInt32.ofNat (if x.isNegative then Nat.pow 2 31 + m else m)⟩

end Binary32

end RenderMaterials
