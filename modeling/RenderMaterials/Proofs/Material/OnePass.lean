import RenderMaterials.Proofs.Material.Rewritten
import RenderMaterials.Source.Memory

/-!
# Reading materials — the only pass

A material with one pass can have it in its own fields, or as the only item of `passes`.  The two
forms are read in another order, and in the list the parts of the pass are completed by what the
material has left of its own, which is nothing.  So both give the same material, or neither gives
one.

* `Material.OfOnePass`: what a material in its own fields is made of.
* `Material.read_eq_ok_of_single`, `Material.Moved.read_eq_ok`: it is read from either form exactly
  when it is made so.
* `Material.moved_listForm`: every material without `passes` has a list form.
* `Material.read_listed_iff`: the forms are read alike.
-/

namespace RenderMaterials

/-! ### The two forms -/

/-- The fields in which a material without `passes` has its only pass, the name apart. -/
def Pass.ownKeys : List String :=
  ["shaders", "states", "parameters", "primitiveTopology", "bindings"]

theorem StateReferences.orElse_empty (r : StateReferences) : r.orElse {} = r := by
  simp [orElse]

namespace Material

/-- A material whose only pass is in its own fields, and the same with these fields moved into the
only item of `passes`, where the pass has its name under another key. -/
structure Moved (v v' pass : Json) : Prop where
  single : v.field? "passes" = none
  passes : v'.field? "passes" = some (.array [pass])
  name   : pass.field? "name" = (v.textField? "pass").map Json.text
  moved  : ∀ key ∈ Pass.ownKeys, pass.field? key = v.field? key ∧ v'.field? key = none
  bare   : ∀ key ∉ Pass.ownKeys, key ≠ "name" → pass.field? key = none
  kept   : ∀ key ∉ Pass.ownKeys, key ≠ "passes" → v'.field? key = v.field? key

/-- A material is made of what is read in its own fields. -/
inductive OfOnePass (ctx : ReadContext) (v : Json) : Material → Prop
  | intro {id : String} {shadersField : Json} {topology : Option Topology}
      {shaders : List ShaderReference} {parameters : List Parameter} {bindings : List Binding}
      (id_read : v.requiredText "id" "material" = .ok id)
      (shaders_there : v.field? "shaders" = some shadersField)
      (shaders_read : ShaderReference.readAll ctx id
        ((v.textField? "pass").getD Pass.defaultLabel) shadersField = .ok shaders)
      (topology_read : Topology.read? id (v.field? "primitiveTopology") = .ok topology)
      (parameters_read : Parameter.readField v = .ok parameters)
      (bindings_read : Binding.readField v shaders = .ok bindings) :
      OfOnePass ctx v {
        id
        passes := [{
          name?    := v.textField? "pass"
          states   := StateReferences.readField v
          topology := topology.getD .triangle
          shaders, parameters, bindings }]
        vertexFormat? := v.textField? "vertexFormat"
        enabled       := ((v.field? "enabled").bind Json.bool?).getD true
        versionHash   := (v.textField? "versionHash").getD "" }

variable {ctx : ReadContext} {v v' pass : Json} {m : Material}

/-! ### Own fields -/

theorem read_eq_ok_of_single (h : v.field? "passes" = none) :
    Material.read ctx v = .ok m ↔ OfOnePass ctx v m := by
  constructor
  · intro hm
    obtain ⟨id, hid, hm⟩ := Result.bind_eq_ok.1 hm
    obtain ⟨topology, htopology, hm⟩ := Result.bind_eq_ok.1 hm
    obtain ⟨parameters, hparameters, hm⟩ := Result.bind_eq_ok.1 hm
    obtain ⟨passes, hpasses, hm⟩ := Result.bind_eq_ok.1 hm
    obtain rfl := Except.ok.inj hm
    rw [Pass.readAll, h] at hpasses
    obtain ⟨p, hp, hpasses⟩ := Result.bind_eq_ok.1 hpasses
    obtain rfl := Except.ok.inj hpasses
    unfold Pass.readSingle at hp
    split at hp
    · next shadersField hthere =>
        obtain ⟨shaders, hshaders, hp⟩ := Result.bind_eq_ok.1 hp
        obtain ⟨bindings, hbindings, hp⟩ := Result.bind_eq_ok.1 hp
        obtain rfl := Except.ok.inj hp
        exact .intro hid hthere hshaders htopology hparameters hbindings
    · cases hp
  · rintro ⟨hid, hthere, hshaders, htopology, hparameters, hbindings⟩
    simp only [Material.read, hid, htopology, hparameters, Pass.readAll, h, Pass.readSingle,
      hthere, hshaders, hbindings, Result.ok_bind, Result.pure_eq]

/-! ### The list of one -/

namespace Moved

theorem textField?_name (h : Moved v v' pass) :
    pass.textField? "name" = v.textField? "pass" := by
  rw [Json.textField?, h.name]
  cases v.textField? "pass" <;> rfl

/-- Nothing is left in the material that its pass could take over. -/
theorem defaults_eq (h : Moved v v' pass) (id : String) :
    Topology.read? id (v'.field? "primitiveTopology") = .ok none ∧
    Parameter.readField v' = .ok [] ∧ StateReferences.readField v' = {} := by
  have hnone : ∀ key ∈ Pass.ownKeys, v'.field? key = none := fun key hkey => (h.moved key hkey).2
  refine ⟨?_, ?_, ?_⟩
  · rw [hnone "primitiveTopology" (by decide)]
    rfl
  · rw [Parameter.readField, Json.arrayField?, hnone "parameters" (by decide)]
    rfl
  · rw [StateReferences.readField, hnone "states" (by decide)]
    rfl

/-- The pass is read for what was in the fields of the material. -/
theorem read_pass (h : Moved v v' pass) (id : String) :
    Pass.read ctx id v' ⟨{}, [], .triangle⟩ pass =
      let label := (v.textField? "pass").getD Pass.defaultLabel
      match v.field? "shaders" with
      | none => .error (.missingField s!"material '{id}' pass '{label}'" "shaders")
      | some shadersField => do
        let shaders ← ShaderReference.readAll ctx id label shadersField
        let topology ← Topology.read? id (v.field? "primitiveTopology")
        let parameters ← Parameter.readField v
        let bindings ← Binding.readField v shaders
        return {
          name?    := v.textField? "pass"
          states   := StateReferences.readField v
          topology := topology.getD .triangle
          shaders, parameters, bindings } := by
  have hsame : ∀ key ∈ Pass.ownKeys, pass.field? key = v.field? key :=
    fun key hkey => (h.moved key hkey).1
  have hshaders : (pass.field? "shaders" <|> v'.field? "shaders") = v.field? "shaders" := by
    rw [hsame "shaders" (by decide), (h.moved "shaders" (by decide)).2]
    cases v.field? "shaders" <;> rfl
  have htopology : (pass.field? "primitiveTopology" <|> pass.field? "topology") =
      v.field? "primitiveTopology" := by
    rw [hsame "primitiveTopology" (by decide), h.bare "topology" (by decide) (by decide)]
    cases v.field? "primitiveTopology" <;> rfl
  have hparameters := Json.arrayField?_congr (hsame "parameters" (by decide))
  have hbindings := Json.arrayField?_congr (hsame "bindings" (by decide))
  have hstates : (StateReferences.readField pass).orElse {} = StateReferences.readField v := by
    rw [StateReferences.orElse_empty, StateReferences.readField, hsame "states" (by decide)]
    rfl
  simp only [Pass.read, hshaders, htopology, h.textField?_name, Parameter.readField, hparameters,
    Binding.readField, hbindings, hstates]
  cases v.field? "shaders" <;> rfl

/-- A material is read from the list form when it is made of what was in its own fields. -/
theorem read_eq_ok (h : Moved v v' pass) : Material.read ctx v' = .ok m ↔ OfOnePass ctx v m := by
  have hid := Json.requiredText_congr (h.kept "id" (by decide) (by decide)) "material"
  have hformat := Json.textField?_congr (h.kept "vertexFormat" (by decide) (by decide))
  have hversion := Json.textField?_congr (h.kept "versionHash" (by decide) (by decide))
  have henabled := h.kept "enabled" (by decide) (by decide)
  have hpasses : ∀ id, Pass.readAll ctx id v' ⟨{}, [], .triangle⟩ =
      (Pass.read ctx id v' ⟨{}, [], .triangle⟩ pass).map fun p => [p] := by
    intro id
    simp only [Pass.readAll, h.passes]
    cases hp : Pass.read ctx id v' ⟨{}, [], .triangle⟩ pass <;> simp [hp, Except.map]
  have hread : Material.read ctx v' = do
      let id ← v.requiredText "id" "material"
      let p ← Pass.read ctx id v' ⟨{}, [], .triangle⟩ pass
      return {
        id
        passes        := [p]
        vertexFormat? := v.textField? "vertexFormat"
        enabled       := ((v.field? "enabled").bind Json.bool?).getD true
        versionHash   := (v.textField? "versionHash").getD "" } := by
    rw [Material.read, hid]
    cases v.requiredText "id" "material" with
    | error e => rfl
    | ok id =>
        obtain ⟨ht, hp, hst⟩ := h.defaults_eq id
        simp only [ht, hp, hst, hformat, hversion, henabled, Result.ok_bind, Option.getD_none,
          hpasses]
        cases Pass.read ctx id v' ⟨{}, [], .triangle⟩ pass <;> rfl
  rw [hread]
  constructor
  · intro hm
    obtain ⟨id, hid, hm⟩ := Result.bind_eq_ok.1 hm
    obtain ⟨p, hp, hm⟩ := Result.bind_eq_ok.1 hm
    obtain rfl := Except.ok.inj hm
    rw [h.read_pass] at hp
    split at hp
    · cases hp
    · next shadersField hthere =>
        obtain ⟨shaders, hshaders, hp⟩ := Result.bind_eq_ok.1 hp
        obtain ⟨topology, htopology, hp⟩ := Result.bind_eq_ok.1 hp
        obtain ⟨parameters, hparameters, hp⟩ := Result.bind_eq_ok.1 hp
        obtain ⟨bindings, hbindings, hp⟩ := Result.bind_eq_ok.1 hp
        obtain rfl := Except.ok.inj hp
        exact .intro hid hthere hshaders htopology hparameters hbindings
  · rintro ⟨hid, hthere, hshaders, htopology, hparameters, hbindings⟩
    simp only [hid, h.read_pass, hthere, hshaders, htopology, hparameters, hbindings,
      Result.ok_bind, Result.pure_eq]

end Moved

/-! ### The list form of a material -/

/-- The only pass of a material, as an item of a list. -/
def onlyPass (o : JsonObject) : JsonObject :=
  ((Json.object o).textField? "pass").toList.map (fun name => ("name", Json.text name)) ++
    o.filter fun e => e.1 ∈ Pass.ownKeys

/-- A material with its only pass in a list. -/
def listForm (o : JsonObject) : JsonObject :=
  o.filter (fun e => e.1 ∉ Pass.ownKeys) ++ [("passes", .array [.object (onlyPass o)])]

theorem field?_onlyPass (o : JsonObject) (key : String) :
    (Json.object (onlyPass o)).field? key =
      if key = "name" then ((Json.object o).textField? "pass").map Json.text
      else if key ∈ Pass.ownKeys then o.value? key else none := by
  have hown := Table.value?_filter_keys o (fun k => k ∈ Pass.ownKeys) key
  simp only [decide_eq_true_eq] at hown
  rw [Json.field?, onlyPass, Table.value?_append, hown]
  by_cases hname : key = "name"
  · subst hname
    cases (Json.object o).textField? "pass" <;> simp [Table.value?, Pass.ownKeys]
  · cases (Json.object o).textField? "pass" <;> simp [Table.value?, hname, Ne.symm hname]

theorem field?_listForm (o : JsonObject) (h : o.value? "passes" = none) (key : String) :
    (Json.object (listForm o)).field? key =
      if key = "passes" then some (.array [.object (onlyPass o)])
      else if key ∈ Pass.ownKeys then none else o.value? key := by
  have hrest := Table.value?_filter_keys o (fun k => k ∉ Pass.ownKeys) key
  simp only [decide_eq_true_eq] at hrest
  rw [Json.field?, listForm, Table.value?_append, hrest]
  by_cases hpasses : key = "passes"
  · subst hpasses
    simp [Table.value?, Pass.ownKeys, h]
  · by_cases hown : key ∈ Pass.ownKeys <;> simp [Table.value?, Ne.symm hpasses, hown, hpasses]

/-- Every material without `passes` has a list form. -/
theorem moved_listForm {o : JsonObject} (h : o.value? "passes" = none) :
    Moved (.object o) (.object (listForm o)) (.object (onlyPass o)) where
  single := h
  passes := by rw [field?_listForm o h, if_pos rfl]
  name   := by rw [field?_onlyPass, if_pos rfl]
  moved key hkey := by
    have hname : key ≠ "name" := by rintro rfl; revert hkey; decide
    have hpasses : key ≠ "passes" := by rintro rfl; revert hkey; decide
    rw [field?_onlyPass, field?_listForm o h, if_neg hname, if_neg hpasses, if_pos hkey,
      if_pos hkey]
    exact ⟨rfl, rfl⟩
  bare key hkey hname := by rw [field?_onlyPass, if_neg hname, if_neg hkey]
  kept key hkey hpasses := by rw [field?_listForm o h, if_neg hpasses, if_neg hkey]; rfl

/-- A material without `passes` has a list form.  And wherever its fields stand there, the two are
read alike: one gives a material exactly when the other does, and the same one. -/
theorem read_listed_iff (ctx : ReadContext) :
    (∀ o : JsonObject, o.value? "passes" = none →
      Moved (.object o) (.object (listForm o)) (.object (onlyPass o))) ∧
    ∀ v v' pass, Moved v v' pass →
      ∀ m, Material.read ctx v = .ok m ↔ Material.read ctx v' = .ok m := by
  refine ⟨fun o h => moved_listForm h, fun v v' pass h m => ?_⟩
  rw [h.read_eq_ok, read_eq_ok_of_single h.single]

/-! ### A material with all fields of a pass -/

namespace AllFields

def context : ReadContext where
  source     := (({} : MemorySource).insertText "lit.wgsl" "").toSource
  shaderRoot := "."

def fields : JsonObject :=
  [("id", .text "m"), ("pass", .text "forward"),
   ("shaders", .object [("vertex", .object [("file", .text "lit.wgsl"),
     ("profile", .text "vs_6_0")])]),
   ("states", .object [("blend", .text "opaque")]), ("primitiveTopology", .text "line"),
   ("parameters", .array [.object [("name", .text "level"), ("type", .text "int")]]),
   ("bindings", .array [.object [("name", .text "camera"), ("kind", .text "cbv")]])]

theorem exists_read : ∃ m, Material.read context (.object fields) = .ok m ∧
    m.passNames = ["forward"] := by
  have h : (Material.read context (.object fields)).toOption.map (·.passNames) =
      some ["forward"] := by decide +kernel
  obtain ⟨m, hm, hnames⟩ := Option.map_eq_some_iff.1 h
  exact ⟨m, Result.toOption_eq_some.1 hm, hnames⟩

/-- The material is read from the list form too. -/
theorem read_from_list : ∃ m, Material.read context (.object fields) = .ok m ∧
    Material.read context (.object (listForm fields)) = .ok m ∧ m.passNames = ["forward"] := by
  obtain ⟨m, hm, hnames⟩ := exists_read
  obtain ⟨hlisted, hread⟩ := read_listed_iff context
  exact ⟨m, hm, (hread _ _ _ (hlisted fields rfl) m).1 hm, hnames⟩

end AllFields

end Material

end RenderMaterials
