import RenderMaterials.Proofs.Result
import RenderMaterials.Reflection.Usage
import Mathlib.Data.List.Induction
import Mathlib.Data.List.Nodup

/-!
# Resource usage — what is reported

Reflecting a module goes through the uses of its entry points one by one, and joins those of one
name into one binding.  The binding has the kind and the slot of the first of them, so that of
several variables with one name all but the first are lost, unless they are alike.

* `StageUse.addUse_cases`: what one use does to the bindings so far.
* `StageUse.StandsFor`: the uses that a binding stands for; `sums_bindings`: what all uses amount
  to.
* `ModuleUsage.mem_uses_iff`: the uses of a module, variable by variable.
* `Translator.reported_iff`: the bindings of a module, whatever its entry points, variables and uses
  are, and when each used variable has one.
* `TwoBuffers.one_lost`: two buffers of one name.
-/

namespace RenderMaterials

theorem StageSet.contains_single (s t : Stage) : (single s).contains t = decide (s = t) := by
  cases s <;> cases t <;> decide

/-! ### Uses one by one -/

namespace StageUse

variable {b : Binding} {bs : List Binding} {x : Stage × ShaderResource}
  {xs : List (Stage × ShaderResource)}

/-- A use joins the binding of its name, or becomes a binding at the end. -/
theorem addUse_cases (s : Stage) (r : ShaderResource) (bs : List Binding) :
    (r.name ∉ bs.map (·.name) ∧ addUse s r bs = bs ++ [r.toBinding s]) ∨
    ∃ front b back, bs = front ++ b :: back ∧ b.name = r.name ∧
      addUse s r bs = front ++ { b with stages := b.stages.union (.single s) } :: back := by
  induction bs with
  | nil => exact .inl ⟨List.not_mem_nil, rfl⟩
  | cons b bs ih =>
      rw [addUse]
      by_cases hb : b.name = r.name
      · exact .inr ⟨[], b, bs, rfl, hb, by rw [if_pos hb]; rfl⟩
      · rw [if_neg hb]
        rcases ih with ⟨hnew, h⟩ | ⟨front, b', back, rfl, hb', h⟩
        · refine .inl ⟨?_, by rw [h, List.cons_append]⟩
          rw [List.map_cons, List.mem_cons, not_or]
          exact ⟨Ne.symm hb, hnew⟩
        · exact .inr ⟨b :: front, b', back, rfl, hb', by rw [h, List.cons_append]⟩

/-- The uses of entry points, in the order in which they are added. -/
def uses (us : List StageUse) : List (Stage × ShaderResource) :=
  us.flatMap fun u => u.resources.map (u.stage, ·)

/-- A binding stands for the uses of its name: it has the kind and the slot of the first of them,
and the stages of all. -/
structure StandsFor (b : Binding) (xs : List (Stage × ShaderResource)) : Prop where
  first  : ∃ x, xs.find? (·.2.name = b.name) = some x ∧ b.kind = x.2.kind ∧
    b.slot = some x.2.binding
  stages : ∀ s, b.stages.contains s = true ↔ ∃ x ∈ xs, x.1 = s ∧ x.2.name = b.name

theorem StandsFor.first_snoc (h : StandsFor b xs) (x : Stage × ShaderResource) :
    ∃ y, (xs ++ [x]).find? (·.2.name = b.name) = some y ∧ b.kind = y.2.kind ∧
      b.slot = some y.2.binding := by
  obtain ⟨y, hy, hparts⟩ := h.first
  exact ⟨y, by rw [List.find?_append, hy, Option.some_or], hparts⟩

/-- A use of another name changes nothing. -/
theorem StandsFor.snoc_other (h : StandsFor b xs) (hx : x.2.name ≠ b.name) :
    StandsFor b (xs ++ [x]) := by
  refine ⟨h.first_snoc x, ?_⟩
  intro s
  rw [h.stages s]
  constructor
  · rintro ⟨y, hy, hparts⟩
    exact ⟨y, List.mem_append_left [x] hy, hparts⟩
  · rintro ⟨y, hy, hs, hname⟩
    rcases List.mem_append.1 hy with hy | hy
    · exact ⟨y, hy, hs, hname⟩
    · exact absurd (List.mem_singleton.1 hy ▸ hname) hx

/-- A further use of the name adds its stage. -/
theorem StandsFor.snoc_same (h : StandsFor b xs) (hx : b.name = x.2.name) :
    StandsFor { b with stages := b.stages.union (.single x.1) } (xs ++ [x]) := by
  refine ⟨h.first_snoc x, ?_⟩
  intro s
  rw [StageSet.contains_union, Bool.or_eq_true, h.stages s, StageSet.contains_single,
    decide_eq_true_eq]
  constructor
  · rintro (⟨y, hy, hparts⟩ | rfl)
    · exact ⟨y, List.mem_append_left [x] hy, hparts⟩
    · exact ⟨x, by simp, rfl, hx.symm⟩
  · rintro ⟨y, hy, hs, hname⟩
    rcases List.mem_append.1 hy with hy | hy
    · exact .inl ⟨y, hy, hs, hname⟩
    · exact .inr (List.mem_singleton.1 hy ▸ hs)

/-- The first use of a name becomes a binding. -/
theorem standsFor_toBinding (hnew : ∀ y ∈ xs, y.2.name ≠ x.2.name) :
    StandsFor (x.2.toBinding x.1) (xs ++ [x]) := by
  have hname : (x.2.toBinding x.1).name = x.2.name := rfl
  refine ⟨⟨x, ?_, rfl, rfl⟩, ?_⟩
  · have hnone : xs.find? (·.2.name = x.2.name) = none := by
      rw [List.find?_eq_none]
      intro y hy
      simpa using hnew y hy
    rw [hname, List.find?_append, hnone, Option.none_or, List.find?_singleton]
    simp
  · intro s
    rw [ShaderResource.toBinding, StageSet.contains_single, decide_eq_true_eq]
    constructor
    · rintro rfl
      exact ⟨x, by simp, rfl, rfl⟩
    · rintro ⟨y, hy, hs, hy'⟩
      rcases List.mem_append.1 hy with hy | hy
      · exact absurd hy' (hnew y hy)
      · exact List.mem_singleton.1 hy ▸ hs

theorem names_snoc (xs : List (Stage × ShaderResource)) (x : Stage × ShaderResource) :
    (xs ++ [x]).map (·.2.name) = xs.map (·.2.name) ++ [x.2.name] := List.map_append

/-- What uses amount to: a binding for each name, in the order of the first uses. -/
structure Sums (xs : List (Stage × ShaderResource)) (bs : List Binding) : Prop where
  names : bs.map (·.name) = (xs.map (·.2.name)).eraseDups
  each  : ∀ b ∈ bs, StandsFor b xs

theorem Sums.nodup (h : Sums xs bs) : (bs.map (·.name)).Nodup := by
  rw [h.names]
  exact Table.nodup_eraseDups _

theorem Sums.mem_names_iff (h : Sums xs bs) {name : String} :
    name ∈ bs.map (·.name) ↔ name ∈ xs.map (·.2.name) := by
  rw [h.names, List.mem_eraseDups]

theorem Sums.append (h : Sums xs bs) (hnew : x.2.name ∉ bs.map (·.name)) :
    Sums (xs ++ [x]) (bs ++ [x.2.toBinding x.1]) := by
  have hunused : x.2.name ∉ xs.map (·.2.name) := fun hmem => hnew (h.mem_names_iff.2 hmem)
  refine ⟨?_, ?_⟩
  · rw [names_snoc, Table.eraseDups_concat, if_neg hunused, List.map_append, h.names]
    rfl
  · intro b hb
    rcases List.mem_append.1 hb with hb | hb
    · refine (h.each b hb).snoc_other ?_
      intro e
      exact hnew (e ▸ List.mem_map_of_mem hb)
    · obtain rfl := List.mem_singleton.1 hb
      refine standsFor_toBinding ?_
      intro y hy e
      exact hunused (e ▸ List.mem_map_of_mem hy)

theorem Sums.join {front back : List Binding} (h : Sums xs (front ++ b :: back))
    (hname : b.name = x.2.name) :
    Sums (xs ++ [x]) (front ++ { b with stages := b.stages.union (.single x.1) } :: back) := by
  have hb : b ∈ front ++ b :: back := by simp
  refine ⟨?_, ?_⟩
  · have hknown : x.2.name ∈ xs.map (·.2.name) := by
      rw [← h.mem_names_iff, ← hname]
      exact List.mem_map_of_mem hb
    rw [names_snoc, Table.eraseDups_concat, if_pos hknown, ← h.names]
    simp
  · intro c hc
    have hnodup := h.nodup
    rw [List.map_append, List.map_cons, List.nodup_middle, List.nodup_cons, ← List.map_append]
      at hnodup
    rw [List.mem_append, List.mem_cons, or_left_comm, ← List.mem_append] at hc
    rcases hc with rfl | hc
    · exact (h.each b hb).snoc_same hname
    · -- no other binding has the name
      refine (h.each c ?_).snoc_other ?_
      · rw [List.mem_append, List.mem_cons, or_left_comm, ← List.mem_append]
        exact .inr hc
      · intro e
        exact hnodup.1 (hname.trans e ▸ List.mem_map_of_mem hc)

theorem Sums.addUse (h : Sums xs bs) (x : Stage × ShaderResource) :
    Sums (xs ++ [x]) (addUse x.1 x.2 bs) := by
  rcases addUse_cases x.1 x.2 bs with ⟨hnew, hadd⟩ | ⟨front, b, back, rfl, hname, hadd⟩
  · exact hadd ▸ h.append hnew
  · exact hadd ▸ h.join hname

theorem sums_foldl (xs : List (Stage × ShaderResource)) :
    Sums xs (xs.foldl (fun bs x => addUse x.1 x.2 bs) []) := by
  induction xs using List.reverseRecOn with
  | nil =>
      refine ⟨rfl, ?_⟩
      intro b hb
      cases hb
  | append_singleton xs x ih =>
      rw [List.foldl_append]
      exact ih.addUse x

/-- The bindings of entry points are what their uses amount to. -/
theorem sums_bindings (us : List StageUse) : Sums (uses us) (bindings us) := by
  have hflat : bindings us = (uses us).foldl (fun bs x => addUse x.1 x.2 bs) [] := by
    rw [uses, List.foldl_flatMap]
    simp only [List.foldl_map]
    rfl
  rw [hflat]
  exact sums_foldl (uses us)

end StageUse

/-! ### Variables of a module -/

namespace ModuleUsage

variable {u : ModuleUsage} {s : Stage} {v : Nat} {r : ShaderResource} {bs : List Binding}

/-- The resource that the variable of a place is. -/
def resource? (u : ModuleUsage) (v : Nat) : Option ShaderResource :=
  u.globals[v]?.bind GlobalVariable.resource?

/-- An entry point of a stage uses the variable of a place. -/
def UsedIn (u : ModuleUsage) (s : Stage) (v : Nat) : Prop :=
  ∃ i e, u.entries[i]? = some e ∧ e.stage.stage = s ∧ u.uses i v = true

/-- The variable of a place is a resource, and some entry point uses it. -/
structure Needs (u : ModuleUsage) (v : Nat) (r : ShaderResource) : Prop where
  resource : u.resource? v = some r
  used     : ∃ s, u.UsedIn s v

theorem mem_usedBy {i : Nat} :
    r ∈ u.usedBy i ↔ ∃ v, u.resource? v = some r ∧ u.uses i v = true := by
  rw [usedBy, List.mem_filterMap]
  constructor
  · rintro ⟨⟨g, v⟩, hmem, hg⟩
    rw [Option.ite_none_right_eq_some] at hg
    refine ⟨v, ?_, hg.1⟩
    rw [resource?, List.mk_mem_zipIdx_iff_getElem?.1 hmem]
    exact hg.2
  · rintro ⟨v, hv, huses⟩
    obtain ⟨g, hg, hr⟩ := Option.bind_eq_some_iff.1 hv
    refine ⟨(g, v), List.mk_mem_zipIdx_iff_getElem?.2 hg, ?_⟩
    rw [if_pos huses]
    exact hr

/-- The uses of a module are those of its variables. -/
theorem mem_uses_iff :
    (s, r) ∈ StageUse.uses u.stageUses ↔ ∃ v, u.resource? v = some r ∧ u.UsedIn s v := by
  unfold StageUse.uses stageUses
  rw [List.mem_flatMap]
  constructor
  · rintro ⟨use, hmem, hx⟩
    obtain ⟨⟨e, i⟩, he, rfl⟩ := List.mem_map.1 hmem
    obtain ⟨r', hr, hx⟩ := List.mem_map.1 hx
    obtain ⟨rfl, rfl⟩ := Prod.mk.inj hx
    obtain ⟨v, hv, huses⟩ := mem_usedBy.1 hr
    exact ⟨v, hv, i, e, List.mk_mem_zipIdx_iff_getElem?.1 he, rfl, huses⟩
  · rintro ⟨v, hv, i, e, he, rfl, huses⟩
    refine ⟨⟨e.stage.stage, u.usedBy i⟩, ?_, ?_⟩
    · exact List.mem_map.2 ⟨(e, i), List.mk_mem_zipIdx_iff_getElem?.2 he, rfl⟩
    · exact List.mem_map.2 ⟨r, mem_usedBy.2 ⟨v, hv, huses⟩, rfl⟩

/-! ### Bindings of a module -/

/-- A binding reports a variable: its kind, its binding index and the stages that use it. -/
structure Reports (u : ModuleUsage) (b : Binding) (v : Nat) (r : ShaderResource) : Prop where
  kind   : b.kind = r.kind
  slot   : b.slot = some r.binding
  stages : ∀ s, b.stages.contains s = true ↔ u.UsedIn s v

/-- Variables that one binding can report: of one kind and binding index, used in the same
stages. -/
structure Alike (u : ModuleUsage) (v v' : Nat) (r r' : ShaderResource) : Prop where
  kind    : r.kind = r'.kind
  binding : r.binding = r'.binding
  stages  : ∀ s, u.UsedIn s v ↔ u.UsedIn s v'

/-- What the bindings of a module are: no two of one name, each of them made of the used variables
of its name. -/
structure Reported (u : ModuleUsage) (bs : List Binding) : Prop where
  nodup : (bs.map (·.name)).Nodup
  named : ∀ v r, u.Needs v r → ∃ b ∈ bs, b.name = r.name
  each  : ∀ b ∈ bs, ∃ v r, u.Needs v r ∧ b.name = r.name ∧ b.kind = r.kind ∧
    b.slot = some r.binding ∧ ∀ s, b.stages.contains s = true ↔
      ∃ v' r', u.resource? v' = some r' ∧ r'.name = b.name ∧ u.UsedIn s v'

theorem reported_bindings (u : ModuleUsage) : u.Reported u.bindings := by
  have hsums := StageUse.sums_bindings u.stageUses
  refine ⟨hsums.nodup, ?_, ?_⟩
  · rintro v r ⟨hv, s, hs⟩
    have hmem : r.name ∈ u.bindings.map (·.name) := by
      refine hsums.mem_names_iff.2 (List.mem_map.2 ⟨(s, r), ?_, rfl⟩)
      exact mem_uses_iff.2 ⟨v, hv, hs⟩
    exact List.mem_map.1 hmem
  · intro b hb
    obtain ⟨⟨⟨s, r⟩, hfirst, hkind, hslot⟩, hstages⟩ := hsums.each b hb
    obtain ⟨v, hv, hused⟩ := mem_uses_iff.1 (List.mem_of_find?_eq_some hfirst)
    have hname : r.name = b.name := by simpa using List.find?_some hfirst
    refine ⟨v, r, ⟨hv, s, hused⟩, hname.symm, hkind, hslot, ?_⟩
    intro s'
    rw [hstages s']
    constructor
    · rintro ⟨⟨s'', r'⟩, hx, rfl, hr⟩
      obtain ⟨v', hv', hused'⟩ := mem_uses_iff.1 hx
      exact ⟨v', r', hv', hr, hused'⟩
    · rintro ⟨v', r', hv', hname', hused'⟩
      exact ⟨(s', r'), mem_uses_iff.2 ⟨v', hv', hused'⟩, rfl, hname'⟩

/-- Each used variable is reported under its name exactly when used variables of one name are
alike. -/
theorem Reported.each_iff (h : u.Reported bs) :
    (∀ v r, u.Needs v r → ∃ b ∈ bs, b.name = r.name ∧ u.Reports b v r) ↔
      ∀ v r v' r', u.Needs v r → u.Needs v' r' → r.name = r'.name → u.Alike v v' r r' := by
  constructor
  · intro hall v r v' r' hv hv' hname
    obtain ⟨b, hb, hbname, hkind, hslot, hstages⟩ := hall v r hv
    obtain ⟨b', hb', hbname', hkind', hslot', hstages'⟩ := hall v' r' hv'
    -- one name, one binding
    obtain rfl : b = b' :=
      List.inj_on_of_nodup_map h.nodup hb hb' (hbname.trans (hname.trans hbname'.symm))
    refine ⟨hkind.symm.trans hkind', Option.some.inj (hslot.symm.trans hslot'), ?_⟩
    intro s
    rw [← hstages s, hstages' s]
  · intro halike v r hv
    obtain ⟨b, hb, hname⟩ := h.named v r hv
    obtain ⟨v', r', hv', hname', hkind, hslot, hstages⟩ := h.each b hb
    have hsame := halike v' r' v r hv' hv (hname'.symm.trans hname)
    refine ⟨b, hb, hname, hkind.trans hsame.kind, by rw [hslot, hsame.binding], ?_⟩
    intro s
    rw [hstages s]
    constructor
    · rintro ⟨v'', r'', hv'', hname'', hused''⟩
      have hlast := halike v'' r'' v r ⟨hv'', s, hused''⟩ hv (hname''.trans hname)
      exact (hlast.stages s).1 hused''
    · intro hs
      exact ⟨v, r, hv.resource, hname.symm, hs⟩

end ModuleUsage

namespace Translator

variable {t : Translator} {code : Bytecode} {m : t.Module} {info : t.Info}

theorem reflector_eq_ok (hm : t.readSpirv code.bytes = .ok m) (hinfo : t.validate m = .ok info) :
    t.reflector code = .ok (t.usage m info).bindings := by
  unfold reflector
  rw [hm, Result.bind_eq_ok]
  exact ⟨m, rfl, Result.bind_eq_ok.2 ⟨info, Result.mapError_eq_ok.2 hinfo, rfl⟩⟩

/-- Code that is read as a valid module is reflected to bindings of different names, each with the
kind and the binding index of a used variable of its name and the stages of all of them, and no used
variable is without a binding of its name.  Each used variable is reported, with its own kind,
binding index and stages, if and only if used variables of one name are alike. -/
theorem reported_iff (hm : t.readSpirv code.bytes = .ok m) (hinfo : t.validate m = .ok info) :
    ∃ bs, t.reflector code = .ok bs ∧ (t.usage m info).Reported bs ∧
      ((∀ v r, (t.usage m info).Needs v r →
          ∃ b ∈ bs, b.name = r.name ∧ (t.usage m info).Reports b v r) ↔
        ∀ v r v' r', (t.usage m info).Needs v r → (t.usage m info).Needs v' r' →
          r.name = r'.name → (t.usage m info).Alike v v' r r') := by
  have hreported := (t.usage m info).reported_bindings
  exact ⟨_, reflector_eq_ok hm hinfo, hreported, hreported.each_iff⟩

end Translator

/-! ### Two buffers -/

namespace TwoBuffers

open Spirv

/-- A compute shader that copies a vector from a uniform buffer, variable 5 of binding 7, to a
storage buffer, variable 8 of binding 3, which is called `o`. -/
def copying (uniform : String) : Module where
  version := 0x00010300
  generator := 28
  bound := 22
  instructions := [
    ⟨Op.capability, [1]⟩, ⟨Op.importInstructions, 1 :: literal "GLSL.std.450"⟩,
    ⟨Op.memoryModel, [0, 1]⟩,
    ⟨Op.entryPoint, 5 :: 12 :: literal "cs"⟩, ⟨Op.executionMode, [12, 17, 1, 1, 1]⟩,
    ⟨Op.name, 5 :: literal uniform⟩, ⟨Op.name, 8 :: literal "o"⟩, ⟨Op.name, 12 :: literal "cs"⟩,
    ⟨Op.decorate, [5, 34, 1]⟩, ⟨Op.decorate, [5, 33, 7]⟩,
    ⟨Op.decorate, [6, 2]⟩, ⟨72, [6, 0, 35, 0]⟩,
    ⟨Op.decorate, [8, 34, 0]⟩, ⟨Op.decorate, [8, 33, 3]⟩,
    ⟨Op.decorate, [9, 2]⟩, ⟨72, [9, 0, 35, 0]⟩,
    ⟨Op.typeVoid, [2]⟩, ⟨Op.typeFloat, [4, 32]⟩, ⟨Op.typeVector, [3, 4, 4]⟩, ⟨30, [6, 3]⟩,
    ⟨Op.typePointer, [7, 2, 6]⟩, ⟨Op.declareVariable, [7, 5, 2]⟩, ⟨30, [9, 3]⟩,
    ⟨Op.typePointer, [10, 12, 9]⟩, ⟨Op.declareVariable, [10, 8, 12]⟩, ⟨Op.typeFunction, [13, 2]⟩,
    ⟨Op.typePointer, [14, 2, 3]⟩, ⟨21, [16, 32, 0]⟩, ⟨43, [16, 15, 0]⟩,
    ⟨Op.typePointer, [18, 12, 3]⟩,
    ⟨Op.function, [2, 12, 0, 13]⟩, ⟨Op.label, [11]⟩, ⟨Op.accessChain, [14, 17, 5, 15]⟩,
    ⟨Op.accessChain, [18, 19, 8, 15]⟩, ⟨Op.branch, [20]⟩, ⟨Op.label, [20]⟩,
    ⟨Op.load, [3, 21, 17]⟩,
    ⟨Op.store, [19, 21]⟩, ⟨Op.returnVoid, []⟩, ⟨Op.functionEnd, []⟩]

def code (uniform : String) : Bytecode := ⟨.compute, "cs", (copying uniform).bytes⟩

/-- A translator that reads this shader, whose entry point uses both buffers; a module is the name
of its uniform buffer. -/
def translator : Translator where
  Module            := String
  Info              := Unit
  readWgsl _        := .error "no WGSL"
  readGlsl _ _ _    := .error "no GLSL"
  readSpirv bytes   :=
    ((["u", "o"].find? fun uniform => (copying uniform).bytes = bytes).map .ok).getD
      (.error "no such module")
  validate _        := .ok ()
  entries _         := [⟨"cs", .compute⟩]
  globals uniform   := [
    ⟨some uniform, .uniform, some ⟨1, 7⟩, .other⟩,
    ⟨some "o", .storage ⟨true, true⟩, some ⟨0, 3⟩, .other⟩]
  uses _ _ _        := true
  write _ _ _ _     := .error "nothing is written"

def uniformBuffer (name : String) : ShaderResource := ⟨some name, 1, 7, .constantBuffer⟩

def storageBuffer : ShaderResource := ⟨some "o", 0, 3, .readWriteResource⟩

/-- What the shader uses. -/
def usage (uniform : String) : ModuleUsage := translator.usage uniform ()

theorem readSpirv_code : ∀ uniform ∈ ["u", "o"],
    translator.readSpirv (code uniform).bytes = .ok uniform := by
  have hfind : ∀ uniform ∈ ["u", "o"],
      ["u", "o"].find? (fun name => (copying name).bytes = (code uniform).bytes) =
        some uniform := by decide +kernel
  intro uniform hmem
  simp only [translator, hfind uniform hmem, Option.map_some, Option.getD_some]

/-- The variables of the shader are the two buffers. -/
theorem resource?_eq_some {uniform : String} {v : Nat} {r : ShaderResource} :
    (usage uniform).resource? v = some r ↔
      v = 0 ∧ r = uniformBuffer uniform ∨ v = 1 ∧ r = storageBuffer := by
  match v with
  | 0 =>
      have h : (usage uniform).resource? 0 = some (uniformBuffer uniform) := rfl
      simp [h, eq_comm]
  | 1 =>
      have h : (usage uniform).resource? 1 = some storageBuffer := rfl
      simp [h, eq_comm]
  | v + 2 =>
      have h : (usage uniform).resource? (v + 2) = none := rfl
      simp [h]

theorem needs_storageBuffer (uniform : String) : (usage uniform).Needs 1 storageBuffer :=
  ⟨rfl, .compute, 0, ⟨"cs", .compute⟩, rfl, rfl, rfl⟩

/-- Buffers of different names are both reported. -/
theorem both_reported : ∃ bs, translator.reflector (code "u") = .ok bs ∧
    bs.map (·.name) = ["u", "o"] ∧ ∀ v r, (usage "u").Needs v r →
      ∃ b ∈ bs, b.name = r.name ∧ (usage "u").Reports b v r := by
  have hread := readSpirv_code "u" (by simp)
  obtain ⟨bs, hbs, -, hiff⟩ := Translator.reported_iff hread rfl
  obtain rfl := Except.ok.inj (hbs.symm.trans (Translator.reflector_eq_ok hread rfl))
  refine ⟨_, hbs, by decide, hiff.2 ?_⟩
  intro v r v' r' hv hv' hname
  rcases resource?_eq_some.1 hv.resource with ⟨rfl, rfl⟩ | ⟨rfl, rfl⟩ <;>
    rcases resource?_eq_some.1 hv'.resource with ⟨rfl, rfl⟩ | ⟨rfl, rfl⟩
  · exact ⟨rfl, rfl, fun _ => Iff.rfl⟩
  · exact absurd hname (by decide)
  · exact absurd hname (by decide)
  · exact ⟨rfl, rfl, fun _ => Iff.rfl⟩

/-- Not every used variable is reported: of two buffers of one name the second one is lost. -/
theorem one_lost : ¬ ∀ (t : Translator) (code : Bytecode) (m : t.Module) (info : t.Info),
    t.readSpirv code.bytes = .ok m → t.validate m = .ok info →
    ∃ bs, t.reflector code = .ok bs ∧ (bs.map (·.name)).Nodup ∧
      ∀ v r, (t.usage m info).Needs v r → ∃ b ∈ bs, (t.usage m info).Reports b v r := by
  intro hall
  have hread := readSpirv_code "o" (by simp)
  obtain ⟨bs, hbs, -, hreports⟩ := hall translator (code "o") "o" () hread rfl
  obtain rfl := Except.ok.inj (hbs.symm.trans (Translator.reflector_eq_ok hread rfl))
  obtain ⟨b, hb, hkind, -, -⟩ := hreports 1 storageBuffer (needs_storageBuffer "o")
  have hconstant : ∀ b ∈ (usage "o").bindings, b.kind = .constantBuffer := by decide
  rw [hconstant b hb] at hkind
  cases hkind

end TwoBuffers

end RenderMaterials
