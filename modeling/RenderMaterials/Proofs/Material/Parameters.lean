import RenderMaterials.Material.Read
import RenderMaterials.Proofs.Result
import RenderMaterials.Proofs.Source.Canonical
import RenderMaterials.Source.Memory

/-!
# Reading materials — declared parameters

The parameters of a material are looked at twice: by the checks of its document, all of them in one
list, and where the material is read, pass by pass.  Reading may stop before it comes to a
parameter, so that the checks find more.  But what it refuses a parameter for is one of the faults
that they find, and in a material that was read they find none.

* `Parameter.FaultsFrom`: a result that fails with faults of given declarations, or with no fault of
  a parameter.
* `Material.faultsFrom_read`: so does reading a material, with the declarations that are checked.
* `Material.check_of_read`: the declarations of a material that was read are accepted.
* `Document.parameters_agree`: the two for the materials of a document.
* `Document.GlossyPass.unknown_type_reported`: a fault in the second of two passes.
-/

namespace RenderMaterials

/-- Errors that are about a declared parameter. -/
def MaterialError.isParameterFault : MaterialError → Bool
  | .invalidParameter ..     => true
  | .unknownParameterType .. => true
  | _                        => false

/-! ### Faults of given declarations -/

namespace Parameter

variable {α β : Type} {ps qs : List Json} {x : Except MaterialError α} {e : MaterialError}

/-- A result whose errors that are about a parameter are those of given declarations. -/
def FaultsFrom (ps : List Json) (x : Except MaterialError α) : Prop :=
  ∀ e, x = .error e → e.isParameterFault = true → ∃ p ∈ ps, Parameter.check p = .error e

namespace FaultsFrom

theorem ok (a : α) : FaultsFrom ps (.ok a) := by
  intro e h
  cases h

/-- An error that is about something else. -/
theorem other (h : e.isParameterFault = false) : FaultsFrom ps (.error e : Except _ α) := by
  intro e' he hp
  cases he
  rw [h] at hp
  cases hp

theorem mono (h : FaultsFrom ps x) (hsub : ps ⊆ qs) : FaultsFrom qs x := by
  intro e he hp
  obtain ⟨p, hmem, hc⟩ := h e he hp
  exact ⟨p, hsub hmem, hc⟩

theorem bind {f : α → Except MaterialError β} (hx : FaultsFrom ps x)
    (hf : ∀ a, FaultsFrom ps (f a)) : FaultsFrom ps (x >>= f) := by
  intro e he hp
  rcases Result.bind_eq_error.1 he with he | ⟨a, -, he⟩
  · exact hx e he hp
  · exact hf a e he hp

theorem mapM {f : β → Except MaterialError α} {bs : List β} (h : ∀ b ∈ bs, FaultsFrom ps (f b)) :
    FaultsFrom ps (bs.mapM f) := by
  intro e he hp
  obtain ⟨b, hb, he⟩ := Result.exists_of_mapM_eq_error he
  exact h b hb e he hp

end FaultsFrom

/-! ### Parts without parameters -/

theorem faultsFrom_requiredText (v : Json) (field context : String) :
    FaultsFrom ps (v.requiredText field context) := by
  unfold Json.requiredText
  split
  · exact .ok _
  · exact .other rfl

theorem faultsFrom_topology (material : String) (v : Option Json) :
    FaultsFrom ps (Topology.read? material v) := by
  unfold Topology.read?
  split
  · exact .ok _
  · split
    · exact .ok _
    · exact .other rfl

theorem faultsFrom_binding (stages : StageSet) (v : Json) :
    FaultsFrom ps (Binding.read stages v) := by
  refine .bind (faultsFrom_requiredText v "name" "binding") fun name => ?_
  dsimp only
  split
  · split
    · exact .ok _
    · split
      · exact .ok _
      · exact .other rfl
  · exact .other rfl

theorem faultsFrom_bindings (v : Json) (ss : List ShaderReference) :
    FaultsFrom ps (Binding.readField v ss) :=
  .mapM fun b _ => faultsFrom_binding _ b

theorem faultsFrom_join (directory relative : String) :
    FaultsFrom ps (Path.join directory relative) := by
  intro e h hp
  obtain ⟨path, reason, rfl⟩ := Path.error_of_join h
  cases hp

section Shaders

variable (ctx : ReadContext) (material pass : String)

theorem faultsFrom_ofDeclaration (stage : Stage) (id? : Option String) (v : Json) :
    FaultsFrom ps (ShaderReference.ofDeclaration ctx material stage id? v) := by
  refine .bind (faultsFrom_requiredText v "file" _) fun written => ?_
  refine .bind (faultsFrom_requiredText v "profile" _) fun profile => ?_
  refine .bind (faultsFrom_join ctx.shaderRoot written) fun file => ?_
  simp only [Result.throw_eq, Result.error_bind]
  split
  · exact .other rfl
  · split
    · exact .other rfl
    · exact .ok _

theorem faultsFrom_shader (stage : Stage) (written : String) (v : Json) :
    FaultsFrom ps (ShaderReference.read ctx material stage written v) := by
  unfold ShaderReference.read
  split
  · split
    · exact faultsFrom_ofDeclaration ctx material stage _ _
    · exact .other rfl
  · exact faultsFrom_ofDeclaration ctx material stage _ _

theorem faultsFrom_declarations (v : Json) :
    FaultsFrom ps (ShaderReference.declarations material v) := by
  unfold ShaderReference.declarations
  split
  · exact .ok _
  · exact .mapM fun item _ => .bind (faultsFrom_requiredText item "stage" _) fun _ => .ok _
  · exact .other rfl

theorem faultsFrom_readEach (found : List ShaderReference) (ds : List (String × Json)) :
    FaultsFrom ps (ShaderReference.readEach ctx material pass found ds) := by
  induction ds generalizing found with
  | nil => exact .ok _
  | cons d ds ih =>
      unfold ShaderReference.readEach
      split
      · split
        · exact .other rfl
        · exact .bind (faultsFrom_shader ctx material _ d.1 d.2) fun s => ih (found ++ [s])
      · exact .other rfl

theorem faultsFrom_shaders (v : Json) :
    FaultsFrom ps (ShaderReference.readAll ctx material pass v) :=
  .bind (faultsFrom_declarations material v) fun ds => faultsFrom_readEach ctx material pass [] ds

theorem faultsFrom_checkNames (index : Nat) (seen : List String) (passes : List Pass) :
    FaultsFrom ps (Pass.checkNames material index seen passes) := by
  induction passes generalizing index seen with
  | nil => exact .ok _
  | cons p passes ih =>
      unfold Pass.checkNames
      split
      · exact .other rfl
      · split
        · exact .other rfl
        · exact ih _ _

end Shaders

/-! ### Parts with parameters -/

/-- The declarations in a value's field. -/
def declared (v : Json) : List Json := (v.arrayField? "parameters").getD []

/-- A declaration is refused for what its check finds, or for its name. -/
theorem faultsFrom_read (v : Json) : FaultsFrom [v] (Parameter.read v) := by
  refine .bind (fun e he _ => ⟨v, List.mem_singleton_self v, he⟩) fun type => ?_
  exact .bind (faultsFrom_requiredText v "name" "parameter") fun name => .ok _

theorem faultsFrom_readField (v : Json) : FaultsFrom (declared v) (Parameter.readField v) :=
  .mapM fun p hp => (faultsFrom_read p).mono fun _ hq => List.mem_singleton.1 hq ▸ hp

/-- A declaration that was read is accepted. -/
theorem check_of_read {v : Json} {p : Parameter} (h : Parameter.read v = .ok p) :
    ∃ type, Parameter.check v = .ok type := by
  obtain ⟨type, hc, -⟩ := Result.bind_eq_ok.1 h
  exact ⟨type, hc⟩

theorem check_of_readField {v : Json} {rs : List Parameter} (h : Parameter.readField v = .ok rs) :
    ∀ p ∈ declared v, ∃ type, Parameter.check p = .ok type := by
  intro p hp
  obtain ⟨r, -, hr⟩ := Result.exists_right_of_mem (Result.mapM_eq_ok.1 h) hp
  exact check_of_read hr

end Parameter

open Parameter

/-! ### Passes -/

namespace Pass

variable {ctx : ReadContext} {material : String} {whole : Json} {defaults : PassDefaults}

theorem faultsFrom_read (v : Json) :
    FaultsFrom (declared v) (Pass.read ctx material whole defaults v) := by
  unfold Pass.read
  dsimp only
  split
  · refine .bind (faultsFrom_shaders ctx material _ _) fun shaders => ?_
    refine .bind (faultsFrom_topology material _) fun topology => ?_
    refine .bind (faultsFrom_readField v) fun parameters => ?_
    exact .bind (faultsFrom_bindings v shaders) fun bindings => .ok _
  · exact .other rfl

theorem faultsFrom_readSingle {ps : List Json} :
    FaultsFrom ps (readSingle ctx material whole defaults) := by
  unfold readSingle
  dsimp only
  split
  · refine .bind (faultsFrom_shaders ctx material _ _) fun shaders => ?_
    exact .bind (faultsFrom_bindings whole shaders) fun bindings => .ok _
  · exact .other rfl

/-- The parameters of all passes. -/
theorem faultsFrom_readAll :
    FaultsFrom (((whole.arrayField? "passes").getD []).flatMap declared)
      (readAll ctx material whole defaults) := by
  unfold readAll
  split
  · exact .bind faultsFrom_readSingle fun p => .ok _
  · next items hitems =>
      have hfield : (whole.arrayField? "passes").getD [] = items := by
        rw [Json.arrayField?, hitems]
        rfl
      rw [hfield]
      simp only [Result.throw_eq, Result.error_bind]
      split
      · exact .other rfl
      · refine .bind (.mapM fun v hv => ?_) fun passes => ?_
        · exact (faultsFrom_read v).mono fun p hp => List.mem_flatMap.2 ⟨v, hv, hp⟩
        · split
          · exact .bind (faultsFrom_checkNames material 0 [] passes) fun _ => .ok _
          · exact .ok _
  · exact .other rfl

theorem check_of_read {v : Json} {p : Pass} (h : Pass.read ctx material whole defaults v = .ok p) :
    ∀ q ∈ declared v, ∃ type, Parameter.check q = .ok type := by
  unfold Pass.read at h
  dsimp only at h
  split at h
  · obtain ⟨shaders, -, h⟩ := Result.bind_eq_ok.1 h
    obtain ⟨topology, -, h⟩ := Result.bind_eq_ok.1 h
    obtain ⟨parameters, hp, -⟩ := Result.bind_eq_ok.1 h
    exact check_of_readField hp
  · cases h

/-- Where there are passes, each of them was read. -/
theorem check_of_readAll {ps : List Pass} (h : readAll ctx material whole defaults = .ok ps) :
    ∀ q ∈ ((whole.arrayField? "passes").getD []).flatMap declared,
      ∃ type, Parameter.check q = .ok type := by
  intro q hq
  obtain ⟨v, hv, hq⟩ := List.mem_flatMap.1 hq
  unfold readAll at h
  split at h
  · next hnone => simp [Json.arrayField?, hnone] at hv
  · next items hitems =>
      have hv : v ∈ items := by simpa [Json.arrayField?, hitems, Json.array?] using hv
      simp only [Result.throw_eq, Result.error_bind] at h
      split at h
      · cases h
      · obtain ⟨passes, hpasses, -⟩ := Result.bind_eq_ok.1 h
        obtain ⟨p, -, hp⟩ := Result.exists_right_of_mem (Result.mapM_eq_ok.1 hpasses) hv
        exact check_of_read hp q hq
  · cases h

end Pass

/-! ### Materials -/

namespace Material

variable {ctx : ReadContext} {v : Json} {m : Material}

theorem parameterDeclarations_eq (v : Json) : Document.parameterDeclarations v =
    declared v ++ ((v.arrayField? "passes").getD []).flatMap declared := rfl

/-- Reading a material fails with faults of the declarations that are checked. -/
theorem faultsFrom_read (ctx : ReadContext) (v : Json) :
    FaultsFrom (Document.parameterDeclarations v) (Material.read ctx v) := by
  rw [parameterDeclarations_eq]
  refine .bind (faultsFrom_requiredText v "id" "material") fun id => ?_
  refine .bind (faultsFrom_topology id _) fun topology => ?_
  refine .bind ((faultsFrom_readField v).mono (List.subset_append_left _ _)) fun parameters => ?_
  refine .bind ?_ fun passes => .ok _
  exact Pass.faultsFrom_readAll.mono (List.subset_append_right _ _)

/-- The declarations of a material that was read are accepted. -/
theorem check_of_read (h : Material.read ctx v = .ok m) :
    ∀ p ∈ Document.parameterDeclarations v, ∃ type, Parameter.check p = .ok type := by
  obtain ⟨id, -, h⟩ := Result.bind_eq_ok.1 h
  obtain ⟨topology, -, h⟩ := Result.bind_eq_ok.1 h
  obtain ⟨parameters, hp, h⟩ := Result.bind_eq_ok.1 h
  obtain ⟨passes, hpasses, -⟩ := Result.bind_eq_ok.1 h
  intro p hmem
  rw [parameterDeclarations_eq] at hmem
  rcases List.mem_append.1 hmem with hmem | hmem
  · exact check_of_readField hp p hmem
  · exact Pass.check_of_readAll hpasses p hmem

end Material

/-! ### Documents -/

namespace Document

/-- What the checks report of the parameters of one material. -/
def parameterFaults (material : Json) : List MaterialError :=
  (parameterDeclarations material).filterMap fun p => errorOf (Parameter.check p)

theorem errorOf_eq_some {α : Type} {x : Except MaterialError α} {e : MaterialError} :
    errorOf x = some e ↔ x = .error e := by
  cases x <;> simp [errorOf]

/-- The checks report the parameters of one material after the other. -/
theorem parameterErrors_eq (d : Document) :
    d.parameterErrors = d.materials.flatMap parameterFaults := by
  rw [parameterErrors, List.filterMap_flatMap]
  rfl

theorem mem_parameterFaults {material : Json} {e : MaterialError} : e ∈ parameterFaults material ↔
    ∃ p ∈ parameterDeclarations material, Parameter.check p = .error e := by
  simp only [parameterFaults, List.mem_filterMap, errorOf_eq_some]

/-- What a material of a document is refused for in a parameter is reported by the checks of the
document; and of a material that can be read they accept every parameter, so that it adds nothing to
the report. -/
theorem parameters_agree {d : Document} {v : Json} (hv : v ∈ d.materials) (ctx : ReadContext) :
    (∀ e, Material.read ctx v = .error e → e.isParameterFault = true →
      e ∈ parameterFaults v ∧ e ∈ d.check.errors) ∧
    ∀ m, Material.read ctx v = .ok m →
      (∀ p ∈ parameterDeclarations v, ∃ type, Parameter.check p = .ok type) ∧
      parameterFaults v = [] := by
  refine ⟨fun e he hp => ?_, fun m hm => ?_⟩
  · have hfault : e ∈ parameterFaults v :=
      mem_parameterFaults.2 (Material.faultsFrom_read ctx v e he hp)
    have hreport : e ∈ d.parameterErrors := by
      rw [parameterErrors_eq]
      exact List.mem_flatMap.2 ⟨v, hv, hfault⟩
    exact ⟨hfault, List.mem_append_right _ hreport⟩
  · have haccepted := Material.check_of_read hm
    refine ⟨haccepted, List.eq_nil_iff_forall_not_mem.2 fun e he => ?_⟩
    obtain ⟨p, hmem, hc⟩ := mem_parameterFaults.1 he
    obtain ⟨type, ht⟩ := haccepted p hmem
    rw [hc] at ht
    cases ht

/-! ### A pass with a parameter of an unknown type -/

namespace GlossyPass

def shaders : String × Json :=
  ("shaders", .object [("vertex", .object [("file", .text "lit.wgsl"),
    ("profile", .text "vs_6_0")])])

def parameters (type : String) : String × Json :=
  ("parameters", .array [.object [("name", .text "gloss"), ("type", .text type)]])

/-- A material with a parameter of its own and another in the second of its passes. -/
def material (type : String) : Json :=
  .object [("id", .text "m"), shaders, parameters "float", ("passes", .array [
    .object [("name", .text "forward")],
    .object [("name", .text "shadow"), parameters type]])]

def document : Document where
  root := [("materials", .array [material "int", material "glossy"]), ("renderPasses", .array [])]

def context : ReadContext where
  source     := (({} : MemorySource).insertText "lit.wgsl" "").toSource
  shaderRoot := "."

theorem read_materials : (Material.read context (material "int")).isOk = true ∧
    Material.read context (material "glossy") =
      .error (.unknownParameterType "gloss" "glossy") := by
  decide +kernel

/-- The fault that the second material is refused for is reported, and the first adds none. -/
theorem unknown_type_reported :
    Material.read context (material "glossy") = .error (.unknownParameterType "gloss" "glossy") ∧
    .unknownParameterType "gloss" "glossy" ∈ document.check.errors ∧
    parameterFaults (material "int") = [] := by
  obtain ⟨hint, hglossy⟩ := read_materials
  obtain ⟨m, hm⟩ := Result.isOk_iff.1 hint
  have hfirst : material "int" ∈ document.materials := List.mem_cons_self
  have hsecond : material "glossy" ∈ document.materials :=
    List.mem_cons_of_mem _ List.mem_cons_self
  exact ⟨hglossy, ((parameters_agree hsecond context).1 _ hglossy rfl).2,
    ((parameters_agree hfirst context).2 m hm).2⟩

end GlossyPass

end Document

end RenderMaterials
