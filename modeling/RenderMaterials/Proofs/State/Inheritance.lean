import RenderMaterials.State.Registry
import RenderMaterials.Proofs.Acyclic
import RenderMaterials.Proofs.Result
import Mathlib.Data.List.Nodup

/-!
# Inheritance of state blocks

A block is what the declarations of its line say: those from the root of its chain of bases down to
its own, put one over the other.  Resolving keeps finished blocks and starts from them, so that the
same block may be reached as a base or by itself.

* `Lineage`, `Resolves`: the line of a block, and the block that it stands for.
* `Resolvable`: each base is declared, no chain of bases is a cycle, and each declaration can be put
  over what it inherits.  `resolvable_iff`: this is so exactly when every declared block stands for
  something.
* `Resolved.resolveInto`, `exists_resolveInto`: one call keeps the finished blocks right and
  finishes its own, if the block stands for something.
* `resolveAll_eq_ok`, `exists_resolveAll`: so do the calls for all declarations.
* `readCategory_spec`: the same for a category of a document, in any order of its declarations.
-/

namespace RenderMaterials

namespace StateBlock

variable {α : Type} [StateBlock α] {declared declared' : Table String JsonObject}
  {id base : String} {json : JsonObject} {a b : α}

/-! ### Lines -/

/-- A declared block names another as its base. -/
def Inherits (declared : Table String JsonObject) (id base : String) : Prop :=
  ∃ json, declared.value? id = some json ∧ base? json = some base

/-- The declarations from the root of a block's chain of bases down to the block. -/
inductive Lineage (declared : Table String JsonObject) : String → List JsonObject → Prop
  | root {id : String} {json : JsonObject} :
      declared.value? id = some json → base? json = none → Lineage declared id [json]
  | derived {id base : String} {json : JsonObject} {line : List JsonObject} :
      declared.value? id = some json → base? json = some base → Lineage declared base line →
      Lineage declared id (line ++ [json])

namespace Lineage

variable {line line' : List JsonObject}

theorem has (h : Lineage declared id line) : declared.has id = true := by
  cases h with
  | root hv _ => exact Table.has_iff.2 ⟨_, hv⟩
  | derived hv _ _ => exact Table.has_iff.2 ⟨_, hv⟩

theorem unique (h : Lineage declared id line) (h' : Lineage declared id line') : line = line' := by
  induction h generalizing line' with
  | root hv hb =>
      cases h' with
      | root hv' _ => rw [Option.some.inj (hv.symm.trans hv')]
      | derived hv' hb' _ =>
          cases hv.symm.trans hv'
          cases hb.symm.trans hb'
  | derived hv hb _ ih =>
      cases h' with
      | root hv' hb' =>
          cases hv.symm.trans hv'
          cases hb.symm.trans hb'
      | derived hv' hb' hl' =>
          cases hv.symm.trans hv'
          cases hb.symm.trans hb'
          rw [ih hl']

/-- A block with a line is on no cycle of bases. -/
theorem acyclic (h : Lineage declared id line) :
    ¬ Relation.TransGen (Inherits declared) id id := by
  induction h with
  | root hv hb =>
      intro hcycle
      obtain ⟨base, ⟨json, hv', hb'⟩, -⟩ := Relation.TransGen.head'_iff.1 hcycle
      cases hv.symm.trans hv'
      cases hb.symm.trans hb'
  | derived hv hb _ ih =>
      intro hcycle
      -- the cycle goes through the base, and so comes back to it
      obtain ⟨base, ⟨json, hv', hb'⟩, hback⟩ := Relation.TransGen.head'_iff.1 hcycle
      cases hv.symm.trans hv'
      cases hb.symm.trans hb'
      exact ih (Relation.TransGen.tail' hback ⟨_, hv, hb⟩)

theorem congr (hd : ∀ i, declared.value? i = declared'.value? i) (h : Lineage declared id line) :
    Lineage declared' id line := by
  induction h with
  | root hv hb => exact .root ((hd _).symm.trans hv) hb
  | derived hv hb _ ih => exact .derived ((hd _).symm.trans hv) hb ih

end Lineage

/-! ### Blocks -/

/-- What an id stands for: the declarations of its line, put over the initial block in order. -/
def Resolves (declared : Table String JsonObject) (id : String) (a : α) : Prop :=
  ∃ line, Lineage declared id line ∧ line.foldlM override initial = .ok a

/-- What a declaration is put over: the block of its base, or the initial block. -/
def Under (declared : Table String JsonObject) (json : JsonObject) (b : α) : Prop :=
  match base? json with
  | none      => b = initial
  | some base => Resolves declared base b

theorem Under.of_root (hb : base? json = none) : Under declared json b ↔ b = initial := by
  rw [Under, hb]

theorem Under.of_base (hb : base? json = some base) :
    Under declared json b ↔ Resolves declared base b := by
  rw [Under, hb]

theorem Resolves.has (h : Resolves declared id a) : declared.has id = true := by
  obtain ⟨line, hl, -⟩ := h
  exact hl.has

theorem Resolves.unique (h : Resolves declared id a) (h' : Resolves declared id b) : a = b := by
  obtain ⟨line, hl, ha⟩ := h
  obtain ⟨line', hl', hb⟩ := h'
  obtain rfl := hl.unique hl'
  exact Except.ok.inj (ha.symm.trans hb)

theorem Resolves.congr (hd : ∀ i, declared.value? i = declared'.value? i) :
    Resolves declared id a ↔ Resolves declared' id a := by
  constructor
  · rintro ⟨line, hl, ha⟩
    exact ⟨line, hl.congr hd, ha⟩
  · rintro ⟨line, hl, ha⟩
    exact ⟨line, hl.congr fun i => (hd i).symm, ha⟩

theorem Under.unique {b' : α} (h : Under declared json b) (h' : Under declared json b') :
    b = b' := by
  cases hb : base? json with
  | none => rw [(of_root hb).1 h, (of_root hb).1 h']
  | some base => exact ((of_base hb).1 h).unique ((of_base hb).1 h')

/-- A block is its declaration, put over what it inherits. -/
theorem resolves_iff (hv : declared.value? id = some json) :
    Resolves declared id a ↔ ∃ b, Under declared json b ∧ override b json = .ok a := by
  constructor
  · rintro ⟨line, hl, ha⟩
    cases hl with
    | root hv' hb =>
        cases hv.symm.trans hv'
        obtain ⟨a', ha', e⟩ := Result.bind_eq_ok.1 ha
        cases e
        exact ⟨initial, (Under.of_root hb).2 rfl, ha'⟩
    | derived hv' hb hl =>
        cases hv.symm.trans hv'
        rw [List.foldlM_append] at ha
        obtain ⟨b, hline, ha⟩ := Result.bind_eq_ok.1 ha
        obtain ⟨a', ha', e⟩ := Result.bind_eq_ok.1 ha
        cases e
        exact ⟨b, (Under.of_base hb).2 ⟨_, hl, hline⟩, ha'⟩
  · rintro ⟨b, hu, ha⟩
    cases hb : base? json with
    | none =>
        obtain rfl := (Under.of_root hb).1 hu
        exact ⟨[json], .root hv hb, by rw [List.foldlM_cons, ha]; rfl⟩
    | some base =>
        obtain ⟨line, hl, hline⟩ := (Under.of_base hb).1 hu
        refine ⟨line ++ [json], .derived hv hb hl, ?_⟩
        rw [List.foldlM_append, hline, Result.ok_bind, List.foldlM_cons, ha]
        rfl

/-! ### When all blocks stand for something -/

/-- What is asked of declarations for all of them to be resolved. -/
structure Resolvable (α : Type) [StateBlock α] (declared : Table String JsonObject) : Prop where
  /-- Every base is declared. -/
  closed  : ∀ id base, Inherits declared id base → declared.has base = true
  /-- No chain of bases is a cycle. -/
  acyclic : ∀ id, ¬ Relation.TransGen (Inherits declared) id id
  /-- Every declaration can be put over what it inherits. -/
  applies : ∀ id json (b : α), declared.value? id = some json → Under declared json b →
    ∃ a, override b json = .ok a

/-- Bases can be followed only so far: there are finitely many declarations, and no cycle. -/
theorem Resolvable.wellFounded (h : Resolvable α declared) :
    WellFounded fun base id : {i // declared.has i = true} => Inherits declared id.1 base.1 :=
  wellFounded_of_acyclic declared.keys (fun i hi => (Table.mem_keys_iff declared i).2 hi)
    fun i _ => h.acyclic i

theorem Resolvable.exists_resolves (h : Resolvable α declared) (hid : declared.has id = true) :
    ∃ a : α, Resolves declared id a := by
  suffices hall : ∀ i : {i // declared.has i = true}, ∃ a : α, Resolves declared i.1 a from
    hall ⟨id, hid⟩
  intro i
  -- a block comes after its base
  induction i using h.wellFounded.induction with
  | _ i ih =>
      obtain ⟨json, hv⟩ := Table.has_iff.1 i.2
      have hunder : ∃ b : α, Under declared json b := by
        cases hb : base? json with
        | none => exact ⟨initial, (Under.of_root hb).2 rfl⟩
        | some base =>
            have hi : Inherits declared i.1 base := ⟨json, hv, hb⟩
            obtain ⟨b, hb'⟩ := ih ⟨base, h.closed i.1 base hi⟩ hi
            exact ⟨b, (Under.of_base hb).2 hb'⟩
      obtain ⟨b, hu⟩ := hunder
      obtain ⟨a, ha⟩ := h.applies i.1 json b hv hu
      exact ⟨a, (resolves_iff hv).2 ⟨b, hu, ha⟩⟩

/-- Declarations can be resolved exactly when each of them stands for a block. -/
theorem resolvable_iff :
    Resolvable α declared ↔ ∀ id, declared.has id = true → ∃ a : α, Resolves declared id a := by
  refine ⟨fun h id hid => h.exists_resolves hid, fun h => ⟨?_, ?_, ?_⟩⟩
  · rintro id base ⟨json, hv, hb⟩
    obtain ⟨a, ha⟩ := h id (Table.has_iff.2 ⟨json, hv⟩)
    obtain ⟨b, hu, -⟩ := (resolves_iff hv).1 ha
    exact ((Under.of_base hb).1 hu).has
  · intro id hcycle
    obtain ⟨base, ⟨json, hv, -⟩, -⟩ := Relation.TransGen.head'_iff.1 hcycle
    obtain ⟨a, line, hl, -⟩ := h id (Table.has_iff.2 ⟨json, hv⟩)
    exact hl.acyclic hcycle
  · intro id json b hv hu
    obtain ⟨a, ha⟩ := h id (Table.has_iff.2 ⟨json, hv⟩)
    obtain ⟨b', hu', ha'⟩ := (resolves_iff hv).1 ha
    exact ⟨a, hu.unique hu' ▸ ha'⟩

/-! ### Resolving one block -/

section One

variable {remaining : Table String JsonObject} {entered : List String} {t t' : Table String α}

/-- The declarations that remain are those of all ids that were not entered. -/
def Remains (declared : Table String JsonObject) (entered : List String)
    (remaining : Table String JsonObject) : Prop :=
  ∀ i, i ∉ entered → remaining.value? i = declared.value? i

theorem Remains.start (declared : Table String JsonObject) : Remains declared [] declared :=
  fun _ _ => rfl

theorem Remains.enter (h : Remains declared entered remaining) (id : String) :
    Remains declared (entered ++ [id]) (remaining.without id) := by
  intro i hi
  simp only [List.mem_append, List.mem_singleton, not_or] at hi
  rw [Table.value?_without_other _ (Ne.symm hi.2), h i hi.1]

/-- Finished blocks: each is what its id stands for, and is kept once. -/
structure Resolved (declared : Table String JsonObject) (t : Table String α) : Prop where
  nodup    : t.keys.Nodup
  resolves : ∀ id a, t.value? id = some a → Resolves declared id a

theorem Resolved.empty : Resolved declared ([] : Table String α) :=
  ⟨List.nodup_nil, fun id a h => by simp at h⟩

theorem Resolved.assign (h : Resolved declared t) (ha : Resolves declared id a) :
    Resolved declared (t.assign id a) := by
  refine ⟨Table.nodup_keys_assign h.nodup id a, fun i b hb => ?_⟩
  rw [Table.value?_assign] at hb
  split at hb
  · next e =>
      cases hb
      exact e ▸ ha
  · exact h.resolves i b hb

/-- The finished block of an id that stands for something. -/
theorem Resolved.value? (h : Resolved declared t) (hid : t.has id = true)
    (ha : Resolves declared id a) : t.value? id = some a := by
  obtain ⟨b, hb⟩ := Table.has_iff.1 hid
  rw [hb, (h.resolves id b hb).unique ha]

/-- A table with what is in another, and with the block of an id. -/
structure Finishes (declared : Table String JsonObject) (id : String) (t t' : Table String α) :
    Prop where
  resolved : Resolved declared t'
  kept     : ∀ i, t.has i = true → t'.has i = true
  done     : t'.has id = true

theorem Finishes.assign {u : Table String α} (hu : Resolved declared u)
    (hk : ∀ i, t.has i = true → u.has i = true) (ha : Resolves declared id a) :
    Finishes declared id t (u.assign id a) :=
  ⟨hu.assign ha, fun i hi => by simp [Table.has_assign, hk i hi], by simp [Table.has_assign]⟩

/-- A call that succeeds keeps what was finished and finishes its own block. -/
theorem Resolved.resolveInto (h : Resolved declared t) (hr : Remains declared entered remaining)
    (hid : declared.has id = true)
    (hok : StateBlock.resolveInto declared remaining entered t id = .ok t') :
    Finishes declared id t t' := by
  fun_induction StateBlock.resolveInto declared remaining entered t id generalizing t' with
  | case1 remaining entered id hhas =>
      cases hok
      exact ⟨h, fun i hi => hi, hhas⟩
  | case2 => cases hok
  | case3 remaining entered id _ hent hrem =>
      -- a declared id that was not entered remains
      rw [hr id (by simpa using hent)] at hrem
      rw [Table.has, hrem] at hid
      cases hid
  | case4 remaining entered id _ hent json hrem hbase =>
      have hv : declared.value? id = some json := (hr id (by simpa using hent)).symm.trans hrem
      obtain ⟨a, ha, e⟩ := Result.bind_eq_ok.1 hok
      cases e
      have hres : Resolves declared id a :=
        (resolves_iff hv).2 ⟨initial, (Under.of_root hbase).2 rfl, ha⟩
      exact .assign h (fun i hi => hi) hres
  | case5 remaining entered id _ hent json hrem base hbase hdecl _ ih =>
      have hv : declared.value? id = some json := (hr id (by simpa using hent)).symm.trans hrem
      obtain ⟨u, hu, hok⟩ := Result.bind_eq_ok.1 hok
      obtain ⟨a, ha, e⟩ := Result.bind_eq_ok.1 hok
      cases e
      -- the block is put over its base, which was finished before
      have hfin : Finishes declared base t u := ih (hr.enter id) hdecl hu
      obtain ⟨b, hb⟩ := Table.has_iff.1 hfin.done
      rw [hb, Option.getD_some] at ha
      have hres : Resolves declared id a :=
        (resolves_iff hv).2 ⟨b, (Under.of_base hbase).2 (hfin.resolved.resolves base b hb), ha⟩
      exact .assign hfin.resolved hfin.kept hres
  | case6 => cases hok

/-- A call for an id that stands for something succeeds.  Only ids whose chain of bases has come to
this one were entered, so that none of them is met again. -/
theorem exists_resolveInto (h : Resolved declared t) (hr : Remains declared entered remaining)
    (hent : ∀ i ∈ entered, Relation.TransGen (Inherits declared) i id)
    (ha : Resolves declared id a) :
    ∃ t', resolveInto declared remaining entered t id = .ok t' := by
  fun_induction resolveInto declared remaining entered t id generalizing a with
  | case1 => exact ⟨t, rfl⟩
  | case2 remaining entered id _ hmem =>
      obtain ⟨line, hl, -⟩ := ha
      exact absurd (hent id (by simpa using hmem)) hl.acyclic
  | case3 => exact ⟨t, rfl⟩
  | case4 remaining entered id _ hnot json hrem hbase =>
      have hv : declared.value? id = some json := (hr id (by simpa using hnot)).symm.trans hrem
      obtain ⟨b, hu, ha'⟩ := (resolves_iff hv).1 ha
      rw [(Under.of_root hbase).1 hu] at ha'
      rw [ha']
      exact ⟨_, rfl⟩
  | case5 remaining entered id _ hnot json hrem base hbase hdecl _ ih =>
      have hv : declared.value? id = some json := (hr id (by simpa using hnot)).symm.trans hrem
      have hstep : Inherits declared id base := ⟨json, hv, hbase⟩
      obtain ⟨b, hu, ha'⟩ := (resolves_iff hv).1 ha
      have hb : Resolves declared base b := (Under.of_base hbase).1 hu
      obtain ⟨u, hok⟩ := ih (hr.enter id) (fun i hi => by
        rcases List.mem_append.1 hi with hi | hi
        · exact (hent i hi).tail hstep
        · exact List.mem_singleton.1 hi ▸ .single hstep) hb
      -- what the call for the base left is the block that the line goes on from
      have hfin := h.resolveInto (hr.enter id) hdecl hok
      rw [hok, Result.ok_bind, hfin.resolved.value? hfin.done hb, Option.getD_some, ha']
      exact ⟨_, rfl⟩
  | case6 remaining entered id _ hnot json hrem base hbase hdecl =>
      have hv : declared.value? id = some json := (hr id (by simpa using hnot)).symm.trans hrem
      obtain ⟨b, hu, -⟩ := (resolves_iff hv).1 ha
      exact absurd ((Under.of_base hbase).1 hu).has hdecl

end One

/-! ### Resolving all blocks -/

section All

variable {t t' : Table String α} {ids : List String}

/-- The calls for declared ids in turn keep what was finished and finish all of them. -/
theorem Resolved.foldlM (h : Resolved declared t) (hids : ∀ i ∈ ids, declared.has i = true)
    (hok : ids.foldlM (StateBlock.resolveInto declared declared []) t = .ok t') :
    Resolved declared t' ∧ (∀ i, t.has i = true → t'.has i = true) ∧
      ∀ i ∈ ids, t'.has i = true := by
  induction ids generalizing t with
  | nil =>
      cases hok
      exact ⟨h, fun i hi => hi, fun i hi => absurd hi (by simp)⟩
  | cons id ids ih =>
      rw [List.foldlM_cons] at hok
      obtain ⟨u, hu, hok⟩ := Result.bind_eq_ok.1 hok
      have hfin := h.resolveInto (.start declared) (hids id (by simp)) hu
      obtain ⟨ht', hkept, hdone⟩ := ih hfin.resolved (fun i hi => hids i (by simp [hi])) hok
      refine ⟨ht', fun i hi => hkept i (hfin.kept i hi), fun i hi => ?_⟩
      rcases List.mem_cons.1 hi with rfl | hi
      · exact hkept i hfin.done
      · exact hdone i hi

theorem exists_foldlM (h : Resolved declared t)
    (hids : ∀ i ∈ ids, ∃ a : α, Resolves declared i a) :
    ∃ t', ids.foldlM (resolveInto declared declared []) t = .ok t' := by
  induction ids generalizing t with
  | nil => exact ⟨t, rfl⟩
  | cons id ids ih =>
      obtain ⟨a, ha⟩ := hids id (by simp)
      obtain ⟨u, hu⟩ := exists_resolveInto h (.start declared) (fun i hi => absurd hi (by simp)) ha
      have hfin := h.resolveInto (.start declared) ha.has hu
      obtain ⟨t', ht'⟩ := ih hfin.resolved fun i hi => hids i (by simp [hi])
      exact ⟨t', by rw [List.foldlM_cons, hu, Result.ok_bind, ht']⟩

variable {ds ds' : List StateDeclaration}

/-- The ids of declarations are those of the last ones. -/
theorem has_ofPairs (ds : List StateDeclaration) (id : String) :
    (Table.ofPairs ds).has id = true ↔ id ∈ ds.map Prod.fst := by
  rw [Table.has, Table.value?_ofPairs, ← Table.has, ← Table.mem_keys_iff, Table.keys,
    List.map_reverse, List.mem_reverse]

/-- The blocks of declarations: one for each id, which is what the id stands for. -/
theorem resolveAll_eq_ok (h : resolveAll α ds = .ok t) :
    t.keys.Nodup ∧ (∀ id, t.has id = true ↔ id ∈ ds.map Prod.fst) ∧
      ∀ id a, t.value? id = some a ↔ Resolves (Table.ofPairs ds) id a := by
  obtain ⟨hres, -, hdone⟩ :=
    Resolved.empty.foldlM (fun i hi => (has_ofPairs ds i).2 hi) h
  have hhas : ∀ id, t.has id = true ↔ id ∈ ds.map Prod.fst := fun id => by
    refine ⟨fun hi => ?_, hdone id⟩
    obtain ⟨a, ha⟩ := Table.has_iff.1 hi
    exact (has_ofPairs ds id).1 (hres.resolves id a ha).has
  refine ⟨hres.nodup, hhas, fun id a => ⟨hres.resolves id a, fun ha => ?_⟩⟩
  exact hres.value? ((hhas id).2 ((has_ofPairs ds id).1 ha.has)) ha

/-- All declarations are resolved exactly when they can be. -/
theorem exists_resolveAll :
    (∃ t, resolveAll α ds = .ok t) ↔ Resolvable α (Table.ofPairs ds) := by
  rw [resolvable_iff]
  constructor
  · rintro ⟨t, h⟩ id hid
    obtain ⟨-, hhas, hvalue⟩ := resolveAll_eq_ok h
    obtain ⟨a, ha⟩ := Table.has_iff.1 ((hhas id).2 ((has_ofPairs ds id).1 hid))
    exact ⟨a, (hvalue id a).1 ha⟩
  · intro h
    exact exists_foldlM .empty fun i hi => h i ((has_ofPairs ds i).2 hi)

end All

/-! ### Order of declarations -/

theorem Resolvable.congr (hd : ∀ i, declared.value? i = declared'.value? i) :
    Resolvable α declared ↔ Resolvable α declared' := by
  simp only [resolvable_iff, Table.has, hd, Resolves.congr hd]

/-- With one declaration for an id, the last one is that one. -/
theorem value?_ofPairs_of_nodup {ds : List StateDeclaration} (h : (ds.map Prod.fst).Nodup)
    (id : String) : (Table.ofPairs ds).value? id = Table.value? ds id := by
  rw [Table.value?_ofPairs]
  exact (Table.value?_perm (List.reverse_perm ds).symm h id).symm

end StateBlock

/-! ### Categories -/

namespace StateCategory

/-- What the blocks of a category are. -/
def Block : StateCategory → Type
  | rasterizer   => RasterizerState
  | depthStencil => DepthStencilState
  | blend        => BlendState
  | renderTarget => RenderTargetState
  | vertexFormat => VertexFormat

instance : (c : StateCategory) → StateBlock c.Block
  | rasterizer   => inferInstanceAs (StateBlock RasterizerState)
  | depthStencil => inferInstanceAs (StateBlock DepthStencilState)
  | blend        => inferInstanceAs (StateBlock BlendState)
  | renderTarget => inferInstanceAs (StateBlock RenderTargetState)
  | vertexFormat => inferInstanceAs (StateBlock VertexFormat)

end StateCategory

namespace StateRegistry

/-- The blocks of a category. -/
def table (r : StateRegistry) : (c : StateCategory) → Table String c.Block
  | .rasterizer   => r.rasterizer
  | .depthStencil => r.depthStencil
  | .blend        => r.blend
  | .renderTarget => r.renderTarget
  | .vertexFormat => r.vertexFormat

/-- A registry holds what each category was read into. -/
theorem read_eq_ok {states : Option JsonObject} {r : StateRegistry} :
    read states = .ok r ↔
      ∀ c, StateBlock.readCategory c.Block (states.getD []) c = .ok (r.table c) := by
  simp only [read, Result.bind_eq_ok]
  constructor
  · rintro ⟨t₁, h₁, t₂, h₂, t₃, h₃, t₄, h₄, t₅, h₅, e⟩ c
    cases e
    cases c with
    | rasterizer => exact h₁
    | depthStencil => exact h₂
    | blend => exact h₃
    | renderTarget => exact h₄
    | vertexFormat => exact h₅
  · intro h
    exact ⟨_, h .rasterizer, _, h .depthStencil, _, h .blend, _, h .renderTarget, _,
      h .vertexFormat, rfl⟩

end StateRegistry

namespace StateBlock

open StateRegistry

/-- A category whose declarations have different ids is read exactly when they can be resolved.  It
then has one block for each id, which is what the id stands for, and the registry holds it; in
another order the declarations give the same blocks. -/
theorem readCategory_spec {states : JsonObject} {c : StateCategory} {ds : List StateDeclaration}
    (hlist : StateDeclaration.list states c.key = .ok ds) (hids : (ds.map Prod.fst).Nodup) :
    ((∃ t, readCategory c.Block states c = .ok t) ↔ Resolvable c.Block ds) ∧
    (∀ t, readCategory c.Block states c = .ok t → t.keys.Perm (ds.map Prod.fst) ∧
      ∀ id a, t.value? id = some a ↔ Resolves ds id a) ∧
    (∀ r, read (some states) = .ok r → readCategory c.Block states c = .ok (r.table c)) ∧
    ∀ states' ds', StateDeclaration.list states' c.key = .ok ds' → ds'.Perm ds →
      ((∃ t', readCategory c.Block states' c = .ok t') ↔
        ∃ t, readCategory c.Block states c = .ok t) ∧
      ∀ t t', readCategory c.Block states c = .ok t → readCategory c.Block states' c = .ok t' →
        ∀ id, t'.value? id = t.value? id := by
  have hread : ∀ {states : JsonObject} {ds : List StateDeclaration},
      StateDeclaration.list states c.key = .ok ds →
      readCategory c.Block states c = resolveAll c.Block ds := fun h => by
    rw [readCategory, h, Result.ok_bind]
  have hds : ∀ {ds' : List StateDeclaration}, ds'.Perm ds → ∀ i,
      (Table.ofPairs ds').value? i = Table.value? ds i := fun hp i => by
    have hids' := ((hp.map Prod.fst).nodup_iff).2 hids
    rw [value?_ofPairs_of_nodup hids', Table.value?_perm hp hids']
  refine ⟨?_, fun t h => ?_, fun r h => read_eq_ok.1 h c, fun states' ds' hlist' hp => ⟨?_, ?_⟩⟩
  · rw [hread hlist, exists_resolveAll, Resolvable.congr (hds (.refl ds))]
  · rw [hread hlist] at h
    obtain ⟨hnodup, hhas, hvalue⟩ := resolveAll_eq_ok h
    refine ⟨(List.perm_ext_iff_of_nodup hnodup hids).2 fun id => ?_, fun id a => ?_⟩
    · rw [Table.mem_keys_iff, hhas]
    · rw [hvalue, Resolves.congr (hds (.refl ds))]
  · rw [hread hlist, hread hlist', exists_resolveAll, exists_resolveAll,
      Resolvable.congr (hds hp), Resolvable.congr (hds (.refl ds))]
  · intro t t' h h' id
    rw [hread hlist] at h
    rw [hread hlist'] at h'
    refine Option.ext fun a => ?_
    rw [(resolveAll_eq_ok h).2.2, (resolveAll_eq_ok h').2.2, Resolves.congr (hds hp),
      Resolves.congr (hds (.refl ds))]

/-- A block that is declared before its base. -/
def wireDeclarations : List StateDeclaration :=
  [("wire", [("base", .text "open"), ("fillMode", .text "Wireframe")]),
    ("open", [("cullMode", .text "None")])]

def wireStates : JsonObject :=
  [(StateCategory.rasterizer.key, .object (wireDeclarations.map fun d => (d.1, .object d.2)))]

theorem wire_over_open :
    StateDeclaration.list wireStates StateCategory.rasterizer.key = .ok wireDeclarations ∧
    (wireDeclarations.map Prod.fst).Nodup ∧
    ∃ t : Table String RasterizerState, readCategory _ wireStates .rasterizer = .ok t ∧
      t.keys.Perm ["wire", "open"] ∧ Resolves wireDeclarations "wire"
        ({ fillMode := .wireframe, cullMode := .none } : RasterizerState) := by
  have hlist : StateDeclaration.list wireStates StateCategory.rasterizer.key =
      .ok wireDeclarations := rfl
  have hids : (wireDeclarations.map Prod.fst).Nodup := by decide
  have hread : readCategory RasterizerState wireStates .rasterizer =
      .ok [("open", { cullMode := .none }),
        ("wire", { fillMode := .wireframe, cullMode := .none })] := by
    decide +kernel
  obtain ⟨hkeys, hvalue⟩ := (readCategory_spec hlist hids).2.1 _ hread
  exact ⟨hlist, hids, _, hread, hkeys, (hvalue "wire" _).1 rfl⟩

end StateBlock

end RenderMaterials
