/-!
# Numbers of 32 bits

Sizes, offsets and slots are numbers of 32 bits, and so are their sums.

* `addWord32_of_lt`: a sum that fits is the sum.
* `addWord32_assoc`: what is cut off on the way makes no difference.
-/

namespace RenderMaterials

/-- The first number that no longer fits 32 bits. -/
def word32Bound : Nat := Nat.pow 2 32

/-- A sum in 32 bits: what does not fit is cut off. -/
def addWord32 (m n : Nat) : Nat := (m + n) % word32Bound

theorem addWord32_lt (m n : Nat) : addWord32 m n < word32Bound := Nat.mod_lt _ (by decide)

theorem addWord32_of_lt {m n : Nat} (h : m + n < word32Bound) : addWord32 m n = m + n :=
  Nat.mod_eq_of_lt h

theorem addWord32_assoc (m n k : Nat) : addWord32 (addWord32 m n) k = addWord32 m (n + k) := by
  rw [addWord32, addWord32, addWord32, Nat.mod_add_mod, Nat.add_assoc]

end RenderMaterials
