import RenderMaterials.Hash.Content

/-!
# Cache keys

A key is a word into which fields are mixed one after another.  `finish` of a fresh key is its seed.
-/

namespace RenderMaterials

namespace Hash

/-- 2⁶⁴ divided by the golden ratio. -/
def goldenRatio : UInt64 := 0x9E3779B97F4A7C15

/-- Mixes a value into a seed; the order of the two matters. -/
def combine (seed value : UInt64) : UInt64 :=
  seed ^^^ (value + goldenRatio + seed <<< 6 + seed >>> 2)

end Hash

/-- A key under construction. -/
structure Key where
  state : UInt64 := 0
  deriving DecidableEq, Repr

namespace Key

/-- Mixes in a number. -/
def word (k : Key) (w : UInt64) : Key := ⟨Hash.combine k.state w⟩

/-- Mixes in a text. -/
def text (k : Key) (s : String) : Key := k.word (textHash s)

/-- Mixes in a text that may be missing, which counts as empty. -/
def optionalText (k : Key) (s : Option String) : Key := k.text (s.getD "")

/-- The value of the key. -/
def finish (k : Key) : UInt64 := k.state

end Key

end RenderMaterials
