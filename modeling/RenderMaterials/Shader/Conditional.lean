import RenderMaterials.Shader.Fault
import RenderMaterials.Text.Blank
import RenderMaterials.Text.Split

/-!
# Conditional lines

`#ifdef NAME` and `#ifndef NAME` open a condition, `#else` turns the innermost one around, and
`#endif` closes it.  A line counts when every condition that is open there holds; all others are
emptied, so that the lines keep their numbers.
-/

namespace RenderMaterials.Conditional

/-- A line that says which lines count. -/
inductive Directive where
  /-- Opens a condition: that a name is defined, or that it is not. -/
  | opens (name : String) (defined : Bool)
  | turns
  | closes
  deriving DecidableEq, Repr

/-- The directive that a line starts with after its blanks. -/
def directive? (line : String) : Option Directive :=
  let cs := Text.trimChars line.toList
  let name (rest : List Char) := String.ofList (Text.trimChars rest)
  match Text.after? "#ifdef".toList cs, Text.after? "#ifndef".toList cs with
  | some rest, _         => some (.opens (name rest) true)
  | none,      some rest => some (.opens (name rest) false)
  | none,      none      =>
    if (Text.after? "#else".toList cs).isSome then some .turns
    else if (Text.after? "#endif".toList cs).isSome then some .closes
    else none

/-- An open condition: whether lines count in it, and whether they count around it. -/
structure Branch where
  counts : Bool
  around : Bool
  deriving DecidableEq, Repr

/-- Whether lines count under some open conditions, the innermost first. -/
def countsIn : List Branch → Bool
  | []     => true
  | b :: _ => b.counts

/-- What becomes of line `n`, and the conditions that are open after it. -/
def step (isDefined : String → Bool) (n : Nat) (bs : List Branch) (line : String) :
    Except CompileFault (String × List Branch) :=
  match directive? line, bs with
  | none,                       bs      => .ok (if countsIn bs then line else "", bs)
  | some (.opens name defined), bs      =>
    .ok ("", ⟨countsIn bs && isDefined name == defined, countsIn bs⟩ :: bs)
  | some .turns,                []      => .error (.elseWithoutCondition n)
  | some .turns,                b :: bs =>
    .ok ("", { b with counts := b.around && !b.counts } :: bs)
  | some .closes,               []      => .error (.endWithoutCondition n)
  | some .closes,               _ :: bs => .ok ("", bs)

/-- The lines from number `n` on, with those that do not count emptied. -/
def selectFrom (isDefined : String → Bool) :
    (n : Nat) → List Branch → List String → Except CompileFault (List String)
  | _, [],     []      => .ok []
  | _, _ :: _, []      => .error .openCondition
  | n, bs,     l :: ls => do
    let (line, bs) ← step isDefined n bs l
    return line :: (← selectFrom isDefined (n + 1) bs ls)

/-- The lines of a text, with those that do not count emptied. -/
def select (isDefined : String → Bool) (ls : List String) : Except CompileFault (List String) :=
  selectFrom isDefined 1 [] ls

/-- One line comes out for each that goes in. -/
theorem length_selectFrom {isDefined : String → Bool} {n : Nat} {bs : List Branch}
    {ls out : List String} (h : selectFrom isDefined n bs ls = .ok out) :
    out.length = ls.length := by
  induction ls generalizing n bs out with
  | nil => cases bs <;> simp_all [selectFrom]
  | cons l ls ih =>
      simp only [selectFrom, bind, Except.bind, pure, Except.pure] at h
      split at h
      · simp at h
      · split at h
        · simp at h
        · rename_i hr
          obtain rfl := Except.ok.inj h
          simp [ih hr]

end RenderMaterials.Conditional
