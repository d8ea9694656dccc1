import Mathlib.Data.Set.Finite.Basic
import Mathlib.Logic.Relation

/-!
# Links without cycles

Documents link files to files and state blocks to state blocks, finitely many of them.  Links that
make no cycle can be followed only so far.
-/

namespace RenderMaterials

/-- Among finitely many things that are on no cycle, links are followed against a well-founded
order. -/
theorem wellFounded_of_acyclic {α : Type} {link : α → α → Prop} {p : α → Prop} (all : List α)
    (hall : ∀ a, p a → a ∈ all) (hacyclic : ∀ a, p a → ¬ Relation.TransGen link a a) :
    WellFounded fun b a : {a // p a} => link a.1 b.1 := by
  have hfin : Finite {a // p a} := Set.Finite.to_subtype ((List.finite_toSet all).subset hall)
  have htrans : WellFounded fun b a : {a // p a} => Relation.TransGen link a.1 b.1 := by
    have : Std.Irrefl fun b a : {a // p a} => Relation.TransGen link a.1 b.1 :=
      ⟨fun a => hacyclic a.1 a.2⟩
    have : IsTrans {a // p a} fun b a => Relation.TransGen link a.1 b.1 :=
      ⟨fun a b c hab hbc => hbc.trans hab⟩
    exact Finite.wellFounded_of_trans_of_irrefl _
  -- one link is a way of several
  exact Subrelation.wf (fun hl => .single hl) htrans

end RenderMaterials
