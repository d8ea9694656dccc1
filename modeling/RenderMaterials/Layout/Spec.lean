import RenderMaterials.Error
import RenderMaterials.Hash.Key
import RenderMaterials.Number.Word
import RenderMaterials.Shader.Binding

/-!
# Binding layouts

The bindings of a pass, merged by name from its stages and declarations.  A builder keeps at most
one binding for a name, in the order of names; a finished layout has a slot for every one.

* `Builder.add`: a conflict leaves what was merged before it.
* `Builder.build`: bindings without a slot are numbered in order, from one past the highest slot.
-/

namespace RenderMaterials

/-- The bindings of a pass. -/
structure LayoutSpec where
  bindings : List Binding := []
  deriving DecidableEq, Repr

namespace LayoutSpec

/-- The first binding of a name. -/
def binding? (s : LayoutSpec) (name : String) : Option Binding :=
  s.bindings.find? (·.name = name)

/-- The bindings that are bound by themselves. -/
def direct (s : LayoutSpec) : List Binding := s.bindings.filter (·.kind.isDirect)

/-- The bindings of a kind. -/
def table (s : LayoutSpec) (k : BindingKind) : List Binding := s.bindings.filter (·.kind = k)

/-- The stages that see some binding of a list. -/
def stagesOf (bs : List Binding) : StageSet := bs.foldl (fun a b => a.union b.stages) .empty

/-- The stages that see some binding. -/
def stages (s : LayoutSpec) : StageSet := stagesOf s.bindings

/-- What a missing slot counts as in cache keys. -/
def noSlot : UInt64 := 0xFFFFFFFFFFFFFFFF

/-- The cache key of a layout: it depends on the bindings and on their order. -/
def hash (s : LayoutSpec) : UInt64 :=
  (s.bindings.foldl (fun (k : Key) b =>
    (((k.text b.name).word (.ofNat b.kind.tag)).word
      (match b.slot with
        | some n => .ofNat n
        | none   => noSlot)).word (.ofNat b.stages.toNat))
    ⟨.ofNat s.bindings.length⟩).finish

end LayoutSpec

/-- Whether two slots can belong to one binding. -/
def slotsAgree : Option Nat → Option Nat → Bool
  | some a, some b => a = b
  | _,      _      => true

namespace Binding

/-- Two bindings of one name as one, if their kinds and slots agree. -/
def merge (existing incoming : Binding) : Except MaterialError Binding :=
  if existing.kind = incoming.kind && slotsAgree existing.slot incoming.slot then
    .ok { existing with
      stages := existing.stages.union incoming.stages
      slot   := existing.slot <|> incoming.slot }
  else .error (.duplicateBinding incoming.name existing.display incoming.display)

end Binding

/-- Bindings under construction, one for a name, in the order of names. -/
structure LayoutBuilder where
  bindings : List Binding := []
  deriving DecidableEq, Repr

namespace LayoutBuilder

/-- Puts a binding in its place, or merges it with the one of its name. -/
def insert (incoming : Binding) : List Binding → Except MaterialError (List Binding)
  | []      => .ok [incoming]
  | b :: bs =>
    if incoming.name < b.name then .ok (incoming :: b :: bs)
    else if incoming.name = b.name then do return (← b.merge incoming) :: bs
    else do return b :: (← insert incoming bs)

/-- Adds bindings in order, up to the first conflict. -/
def add (l : LayoutBuilder) : List Binding → LayoutBuilder × Except MaterialError Unit
  | []      => (l, .ok ())
  | b :: bs =>
    match insert b l.bindings with
    | .ok bindings => add ⟨bindings⟩ bs
    | .error e     => (l, .error e)

/-- Gives bindings without a slot the numbers from `next` on, in 32 bits. -/
def assignSlots (next : Nat) : List Binding → List Binding
  | []      => []
  | b :: bs =>
    match b.slot with
    | some _ => b :: assignSlots next bs
    | none   => { b with slot := some next } :: assignSlots (addWord32 next 1) bs

/-- One past the highest slot in 32 bits, or zero when no slot is given. -/
def firstFree (bs : List Binding) : Nat :=
  ((bs.filterMap (·.slot)).max?.map (addWord32 · 1)).getD 0

/-- The finished layout. -/
def build (l : LayoutBuilder) : LayoutSpec := ⟨assignSlots (firstFree l.bindings) l.bindings⟩

end LayoutBuilder

end RenderMaterials
