/-!
# Spelled enumerations

Finite types whose values have a name in documents.  Reading a name is the inverse of writing it.
-/

namespace RenderMaterials

/-- A finite type whose values have names, no two the same. -/
class Spelled (α : Type) where
  /-- Every value, in order. -/
  all : List α
  /-- The name of a value. -/
  name : α → String
  /-- No value is left out. -/
  complete : ∀ a, a ∈ all
  /-- Names tell values apart. -/
  injective : ∀ a b, name a = name b → a = b

namespace Spelled

variable {α : Type} [Spelled α]

/-- The value of a name. -/
def ofName? (s : String) : Option α := (all (α := α)).find? (fun a => name a = s)

theorem ofName?_name (a : α) : ofName? (name a) = some a := by
  have h : (ofName? (name a) : Option α).isSome := by
    simp only [ofName?, List.find?_isSome]
    exact ⟨a, complete a, by simp⟩
  obtain ⟨b, hb⟩ := Option.isSome_iff_exists.1 h
  have hn : name b = name a := by simpa using List.find?_some hb
  rw [hb, injective b a hn]

theorem name_of_ofName? {s : String} {a : α} (h : ofName? s = some a) : name a = s := by
  simpa using List.find?_some h

end Spelled

end RenderMaterials
