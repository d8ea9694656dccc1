/-!
# Hexadecimal words

Fixed-width lower-case hexadecimal.
-/

namespace RenderMaterials.Text

/-- The lower-case hexadecimal digit of a number below sixteen. -/
def hexDigit (n : Nat) : Char := if n < 10 then Char.ofNat (48 + n) else Char.ofNat (87 + n)

/-- The last `width` hexadecimal digits of a number, most significant first. -/
def hexDigits : Nat → Nat → List Char
  | 0,     _ => []
  | w + 1, n => hexDigits w (n / 16) ++ [hexDigit (n % 16)]

@[simp] theorem length_hexDigits (w n : Nat) : (hexDigits w n).length = w := by
  induction w generalizing n with
  | zero => rfl
  | succ w ih => simp [hexDigits, ih]

/-- A 64-bit word as `0x` and sixteen digits. -/
def hexWord (w : UInt64) : String := String.ofList ('0' :: 'x' :: hexDigits 16 w.toNat)

end RenderMaterials.Text
