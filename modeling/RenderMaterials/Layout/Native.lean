import RenderMaterials.Layout.Spec

/-!
# Native layouts

A layout as graphics interfaces take it: constant buffers one by one, then one table for each kind
of resource that occurs.  Parameters cost words, of which a layout has a limited number.
-/

namespace RenderMaterials

/-- A parameter of a native layout. -/
inductive LayoutParameter where
  /-- A constant buffer. -/
  | direct (name : String) (slot : Nat) (stages : StageSet)
  /-- The resources of a kind, by name and slot. -/
  | table (kind : BindingKind) (ranges : List (String × Nat)) (stages : StageSet)
  deriving DecidableEq, Repr

namespace LayoutParameter

/-- The words that a parameter takes. -/
def cost : LayoutParameter → Nat
  | direct ..  => 2
  | table ..   => 1

end LayoutParameter

/-- A native layout. -/
structure NativeLayout where
  parameters : List LayoutParameter
  deriving DecidableEq, Repr

namespace NativeLayout

/-- The number of words that a layout may take. -/
def maxWords : Nat := 64

/-- The words that a layout takes. -/
def words (l : NativeLayout) : Nat := l.parameters.foldl (fun n p => n + p.cost) 0

/-- The parameter of a constant buffer; a missing slot is slot 0. -/
def directParameter (b : Binding) : LayoutParameter := .direct b.name (b.slot.getD 0) b.stages

/-- The table of a kind, if some binding is of that kind. -/
def tableParameter? (s : LayoutSpec) (k : BindingKind) : Option LayoutParameter :=
  match s.table k with
  | [] => none
  | bs => some (.table k (bs.map fun b => (b.name, b.slot.getD 0)) (LayoutSpec.stagesOf bs))

/-- The parameters of a layout, whatever they cost. -/
def parametersOf (s : LayoutSpec) : List LayoutParameter :=
  s.direct.map directParameter ++ BindingKind.tableKinds.filterMap (tableParameter? s)

/-- The native form of a layout that is not too large. -/
def ofSpec (s : LayoutSpec) : Except MaterialError NativeLayout :=
  let l : NativeLayout := ⟨parametersOf s⟩
  if l.words ≤ maxWords then .ok l else .error (.layoutTooLarge l.words maxWords)

end NativeLayout

end RenderMaterials
