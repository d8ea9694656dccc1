import RenderMaterials.Layout.Native
import Mathlib.Algebra.GroupWithZero.Nat
import Mathlib.Data.List.Forall2
import Mathlib.Data.List.Induction

/-!
# Parameters of native layouts

The native form of a layout sorts its bindings by kind: each constant buffer is a parameter of its
own, and the resources of each other kind share one.  None is lost on the way and none comes twice,
whatever kinds there are, in whatever order.

* `LayoutSpec.flatMap_ofKind_perm`: the bindings, kind by kind, are the bindings.
* `LayoutSpec.contains_stagesOf`: a table is seen by the stages of its members.
* `NativeLayout.TableOf`: the table of a kind.  `tableParameter?_cases`: there is one exactly for a
  kind that occurs.
* `NativeLayout.Realizes`: what a native layout has of a layout.
* `NativeLayout.ofSpec_realizes`: when there is one, and what it costs.
-/

namespace RenderMaterials

/-- The name and the slot of a binding, where a missing slot counts as the first. -/
def Binding.entry (b : Binding) : String × Nat := (b.name, b.slot.getD 0)

/-- The names and slots of a parameter's resources. -/
def LayoutParameter.entries : LayoutParameter → List (String × Nat)
  | direct name slot _ => [(name, slot)]
  | table _ ranges _   => ranges

namespace LayoutSpec

variable {s : LayoutSpec} {bs : List Binding} {k : BindingKind} {ks : List BindingKind}

/-! ### Bindings by kind -/

/-- The bindings of a kind, in order. -/
def ofKind (k : BindingKind) (bs : List Binding) : List Binding := bs.filter (·.kind = k)

/-- Whether a layout has a binding of a kind. -/
def occurs (s : LayoutSpec) (k : BindingKind) : Bool := s.bindings.any (·.kind = k)

/-- The kinds that need a table, in the order of the tables. -/
def tabledKinds (s : LayoutSpec) : List BindingKind :=
  [.readOnlyResource, .readWriteResource, .sampler].filter s.occurs

theorem mem_ofKind {b : Binding} : b ∈ ofKind k bs ↔ b ∈ bs ∧ b.kind = k := by
  simp [ofKind]

theorem ofKind_eq_nil_iff : ofKind k s.bindings = [] ↔ s.occurs k = false := by
  simp [ofKind, occurs]

/-- Kinds that do not occur have no bindings. -/
theorem flatMap_ofKind_occurring (s : LayoutSpec) (ks : List BindingKind) :
    ((ks.filter s.occurs).flatMap fun k => ofKind k s.bindings) =
      ks.flatMap fun k => ofKind k s.bindings := by
  induction ks with
  | nil => rfl
  | cons k ks ih =>
      cases hk : s.occurs k with
      | true => rw [List.filter_cons_of_pos hk, List.flatMap_cons, List.flatMap_cons, ih]
      | false =>
          rw [List.filter_cons_of_neg (by simp [hk]), List.flatMap_cons, ih,
            ofKind_eq_nil_iff.2 hk, List.nil_append]

/-- Kind by kind the bindings are the same, if no kind comes twice and none of theirs is missing. -/
theorem flatMap_ofKind_perm (hks : ks.Nodup) (hall : ∀ b ∈ bs, b.kind ∈ ks) :
    (ks.flatMap fun k => ofKind k bs).Perm bs := by
  induction ks generalizing bs with
  | nil =>
      obtain rfl : bs = [] := List.eq_nil_iff_forall_not_mem.2 fun b hb => by simpa using hall b hb
      exact .nil
  | cons k ks ih =>
      obtain ⟨hk, hks⟩ := List.nodup_cons.1 hks
      -- the other kinds are those of the bindings that are left
      have hrest : ∀ b ∈ bs.filter (fun b => !decide (b.kind = k)), b.kind ∈ ks := by
        intro b hb
        simp only [List.mem_filter, Bool.not_eq_true', decide_eq_false_iff_not] at hb
        exact (List.mem_cons.1 (hall b hb.1)).resolve_left hb.2
      have hsame : ∀ k' ∈ ks, ofKind k' bs =
          ofKind k' (bs.filter fun b => !decide (b.kind = k)) := by
        intro k' hk'
        rw [ofKind, ofKind, List.filter_filter]
        refine List.filter_congr fun b _ => ?_
        by_cases hb : b.kind = k'
        · subst hb
          have hne : b.kind ≠ k := fun e => hk (e ▸ hk')
          simp [hne]
        · simp [hb]
      rw [List.flatMap_cons, List.flatMap_congr hsame]
      exact ((ih hks hrest).append_left _).trans (List.filter_append_perm _ bs)

/-- A stage sees a list of bindings if it sees one of them. -/
theorem contains_stagesOf (bs : List Binding) (st : Stage) :
    (stagesOf bs).contains st = true ↔ ∃ b ∈ bs, b.stages.contains st = true := by
  induction bs using List.reverseRecOn with
  | nil => simp [stagesOf, StageSet.empty, StageSet.contains]
  | append_singleton bs b ih =>
      have hstep : stagesOf (bs ++ [b]) = (stagesOf bs).union b.stages := by
        rw [stagesOf, List.foldl_append]
        rfl
      rw [hstep, StageSet.contains_union, Bool.or_eq_true, ih]
      simp [or_and_right, exists_or]

end LayoutSpec

namespace NativeLayout

open LayoutSpec (ofKind mem_ofKind ofKind_eq_nil_iff)

variable {s : LayoutSpec} {ks : List BindingKind} {tables : List LayoutParameter}

/-! ### Tables -/

/-- The table of a kind has a range for each binding of the kind, in their order, and the stages of
them all. -/
def TableOf (s : LayoutSpec) (k : BindingKind) (p : LayoutParameter) : Prop :=
  ∃ stages, p = .table k ((ofKind k s.bindings).map Binding.entry) stages ∧
    ∀ st, stages.contains st = true ↔ ∃ b ∈ s.bindings, b.kind = k ∧ b.stages.contains st = true

/-- There is a table for a kind that occurs, and none for another. -/
theorem tableParameter?_cases (s : LayoutSpec) (k : BindingKind) :
    s.occurs k = true ∧ (∃ p, tableParameter? s k = some p ∧ TableOf s k p) ∨
      s.occurs k = false ∧ tableParameter? s k = none := by
  have htable : s.table k = ofKind k s.bindings := rfl
  cases hk : s.occurs k with
  | false =>
      refine .inr ⟨rfl, ?_⟩
      rw [tableParameter?, htable, ofKind_eq_nil_iff.2 hk]
  | true =>
      have hne : ofKind k s.bindings ≠ [] := fun h => by
        rw [ofKind_eq_nil_iff, hk] at h
        cases h
      refine .inl ⟨rfl, .table k ((ofKind k s.bindings).map Binding.entry)
        (LayoutSpec.stagesOf (ofKind k s.bindings)), ?_, _, rfl, fun st => ?_⟩
      · rw [tableParameter?, htable]
        split
        · next h => exact absurd h hne
        · rfl
      · simp [LayoutSpec.contains_stagesOf, mem_ofKind, and_assoc]

theorem forall₂_tables (s : LayoutSpec) (ks : List BindingKind) :
    List.Forall₂ (TableOf s) (ks.filter s.occurs) (ks.filterMap (tableParameter? s)) := by
  induction ks with
  | nil => exact .nil
  | cons k ks ih =>
      rcases tableParameter?_cases s k with ⟨hk, p, hp, htable⟩ | ⟨hk, hp⟩
      · rw [List.filter_cons_of_pos hk, List.filterMap_cons_some hp]
        exact .cons htable ih
      · rw [List.filter_cons_of_neg (by simp [hk]), List.filterMap_cons_none hp]
        exact ih

theorem entries_tables (h : List.Forall₂ (TableOf s) ks tables) :
    tables.flatMap LayoutParameter.entries =
      (ks.flatMap fun k => ofKind k s.bindings).map Binding.entry := by
  induction h with
  | nil => rfl
  | cons hp _ ih =>
      obtain ⟨stages, rfl, -⟩ := hp
      rw [List.flatMap_cons, List.flatMap_cons, List.map_append, ih]
      rfl

theorem cost_tables (h : List.Forall₂ (TableOf s) ks tables) :
    (tables.map LayoutParameter.cost).sum = ks.length := by
  induction h with
  | nil => rfl
  | cons hp _ ih =>
      obtain ⟨stages, rfl, -⟩ := hp
      rw [List.map_cons, List.sum_cons, ih, List.length_cons, Nat.add_comm]
      rfl

/-! ### The native form -/

/-- What a native layout has of a layout: each constant buffer by itself, in their order, then a
table for each other kind that occurs, in the order of the kinds.  No binding is lost and none comes
twice, and the words are those of the parameters. -/
structure Realizes (s : LayoutSpec) (l : NativeLayout) : Prop where
  parameters : ∃ tables, l.parameters = (ofKind .constantBuffer s.bindings).map
    (fun b => .direct b.name (b.slot.getD 0) b.stages) ++ tables ∧
      List.Forall₂ (TableOf s) s.tabledKinds tables
  entries    : (l.parameters.flatMap LayoutParameter.entries).Perm (s.bindings.map Binding.entry)
  words      : l.words = (l.parameters.map LayoutParameter.cost).sum

theorem words_eq (l : NativeLayout) : l.words = (l.parameters.map LayoutParameter.cost).sum := by
  rw [words, List.sum_eq_foldl, List.foldl_map]

theorem parametersOf_eq (s : LayoutSpec) :
    ∃ tables, parametersOf s = (ofKind .constantBuffer s.bindings).map
      (fun b => .direct b.name (b.slot.getD 0) b.stages) ++ tables ∧
        List.Forall₂ (TableOf s) s.tabledKinds tables :=
  ⟨_, rfl, forall₂_tables s BindingKind.tableKinds⟩

theorem realizes_parametersOf (s : LayoutSpec) : Realizes s ⟨parametersOf s⟩ := by
  obtain ⟨tables, hparameters, htables⟩ := parametersOf_eq s
  refine ⟨⟨tables, hparameters, htables⟩, ?_, words_eq _⟩
  have hkinds : ∀ b ∈ s.bindings, b.kind ∈ .constantBuffer :: BindingKind.tableKinds := by
    intro b _
    cases b.kind <;> decide
  have hperm := LayoutSpec.flatMap_ofKind_perm (by decide) hkinds
  have hentries : (parametersOf s).flatMap LayoutParameter.entries =
      ((BindingKind.constantBuffer :: BindingKind.tableKinds).flatMap fun k =>
        ofKind k s.bindings).map Binding.entry := by
    have htabled : s.tabledKinds = BindingKind.tableKinds.filter s.occurs := rfl
    rw [hparameters, List.flatMap_append, entries_tables htables, htabled,
      LayoutSpec.flatMap_ofKind_occurring, List.flatMap_map, List.flatMap_cons, List.map_append]
    congr 1
    exact List.map_eq_flatMap.symm
  rw [hentries]
  exact hperm.map Binding.entry

theorem words_parametersOf (s : LayoutSpec) : words ⟨parametersOf s⟩ =
    2 * (ofKind .constantBuffer s.bindings).length + s.tabledKinds.length := by
  obtain ⟨tables, hparameters, htables⟩ := parametersOf_eq s
  have hdirect : ∀ bs : List Binding, ((bs.map fun b =>
      LayoutParameter.direct b.name (b.slot.getD 0) b.stages).map LayoutParameter.cost).sum =
        2 * bs.length := by
    intro bs
    simp [LayoutParameter.cost, Function.comp_def, Nat.mul_comm]
  rw [words_eq, hparameters, List.map_append, List.sum_append, hdirect, cost_tables htables]

/-- A layout has a native form exactly when two words for each constant buffer and one for each
table are within the limit, and is otherwise refused with their number.  The native form has all of
the layout and nothing else. -/
theorem ofSpec_realizes (s : LayoutSpec) :
    (2 * (ofKind .constantBuffer s.bindings).length + s.tabledKinds.length ≤ 64 →
      ∃ l, ofSpec s = .ok l ∧ Realizes s l ∧
        l.words = 2 * (ofKind .constantBuffer s.bindings).length + s.tabledKinds.length) ∧
    (64 < 2 * (ofKind .constantBuffer s.bindings).length + s.tabledKinds.length →
      ofSpec s = .error (.layoutTooLarge
        (2 * (ofKind .constantBuffer s.bindings).length + s.tabledKinds.length) 64)) := by
  rw [ofSpec, words_parametersOf, maxWords]
  refine ⟨fun h => ?_, fun h => ?_⟩
  · exact ⟨⟨parametersOf s⟩, if_pos h, realizes_parametersOf s, words_parametersOf s⟩
  · exact if_neg (Nat.not_le.2 h)


end NativeLayout

end RenderMaterials
