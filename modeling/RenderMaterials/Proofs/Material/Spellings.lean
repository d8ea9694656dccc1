import RenderMaterials.Proofs.Material.Rewritten
import RenderMaterials.Proofs.Source.Canonical
import RenderMaterials.Source.Memory

/-!
# Reading materials — spellings of a stage

A shader stands under the name of its stage, in any letter case, and a pixel shader also under
`fragment`.  Declared in place it is the same under every spelling.  Declared by an id it is looked
for in the library under the spelling as it is written, and under the stage's own name only when
the library has nothing under that spelling; so a library that has a stage under another spelling
is seen by that spelling alone.

* `ShaderReference.Respelled`: the shaders of a pass under other spellings of their stages.
* `ReadContext.OneForAll`: libraries that give the same shaders under all spellings.
* `Material.respelled_alike_iff`: with such libraries, and with no others, materials are read alike
  under every spelling.
* `Material.FragmentLibrary.spelling_matters`: a library under `fragment`.
-/

namespace RenderMaterials

open Json (Fieldwise)

/-! ### Spellings -/

namespace Stage

/-- Two names of one stage. -/
def SameStage (k k' : String) : Prop := ∃ s, ofName? k = some s ∧ ofName? k' = some s

theorem ofName?_name (s : Stage) : ofName? s.name = some s := by
  have h : ∀ s ∈ pipelineOrder, ofName? s.name = some s := by decide +kernel
  exact h s (Spelled.complete s)

end Stage

namespace ShaderReference

/-- The shaders of a pass as they are, or keyed ones under other names of their stages, no two of
them under one key; the declarations whose keys are others have a property. -/
inductive Respelled (P : Json → Prop) : Json → Json → Prop
  | same (v : Json) : Respelled P v v
  | keys {es es' : List (String × Json)}
      (h : List.Forall₂ (fun e e' => e'.2 = e.2 ∧
        (e'.1 = e.1 ∨ Stage.SameStage e.1 e'.1 ∧ P e.2)) es es')
      (nodup : (Table.keys es').Nodup) : Respelled P (.object es) (.object es')

variable {ctx : ReadContext} {material pass : String} {P : Json → Prop}

/-- Declarations that are read alike under all names of their stage are read alike in a pass. -/
theorem readEach_respelled
    (hP : ∀ material s k k' v, P v → Stage.ofName? k = some s → Stage.ofName? k' = some s →
      read ctx material s k' v = read ctx material s k v)
    {es es' : List (String × Json)}
    (h : List.Forall₂ (fun e e' => e'.2 = e.2 ∧
      (e'.1 = e.1 ∨ Stage.SameStage e.1 e'.1 ∧ P e.2)) es es') (found : List ShaderReference) :
    readEach ctx material pass found es' = readEach ctx material pass found es := by
  induction h generalizing found with
  | nil => rfl
  | @cons e e' es es' he _ ih =>
      obtain ⟨k, v⟩ := e
      obtain ⟨k', v'⟩ := e'
      obtain ⟨rfl, rfl | ⟨⟨s, hk, hk'⟩, hv⟩⟩ := he
      · simp only [readEach, ih]
      · simp only [readEach, hk, hk', hP material s k k' _ hv hk hk', ih]

theorem readAlike_respelled
    (hP : ∀ material s k k' v, P v → Stage.ofName? k = some s → Stage.ofName? k' = some s →
      read ctx material s k' v = read ctx material s k v) :
    ReadAlike ctx ctx (Respelled P) where
  refl := .same
  read h material pass := by
    cases h with
    | same => rfl
    | keys h => exact readEach_respelled hP h []

/-- A declaration in place is read without a look at its key. -/
theorem read_inPlace {s : Stage} {k k' : String} {v : Json} (h : v.text? = none) :
    read ctx material s k' v = read ctx material s k v := by
  rw [read_of_inPlace h, read_of_inPlace h]

end ShaderReference

/-! ### Libraries -/

namespace ShaderReference

variable {ctx : ReadContext} {material : String} {stage : Stage}

/-- A declaration is never refused as one that is not there. -/
theorem ofDeclaration_ne_unknown (id? : Option String) (v : Json) (id : String) :
    ofDeclaration ctx material stage id? v ≠ .error (.unknownShader material stage.name id) := by
  have htext : ∀ {field context : String} {e : MaterialError},
      v.requiredText field context = .error e → e = .missingField context field := by
    intro field context e h
    unfold Json.requiredText at h
    split at h
    · cases h
    · exact (Except.error.inj h).symm
  intro h
  obtain h | ⟨written, -, h⟩ := Result.bind_eq_error.1 h
  · cases htext h
  obtain h | ⟨profile, -, h⟩ := Result.bind_eq_error.1 h
  · cases htext h
  obtain h | ⟨file, -, h⟩ := Result.bind_eq_error.1 h
  · obtain ⟨path, reason, h⟩ := Path.error_of_join h
    cases h
  simp only [Result.throw_eq, Result.error_bind] at h
  split at h
  · cases h
  · split at h <;> cases h

/-- An id that is read alike under two spellings is found under both, with declarations that are
read alike, or under neither. -/
theorem declarations_of_read {k k' id : String}
    (h : ∀ material, read ctx material stage k' (.text id) = read ctx material stage k (.text id)) :
    Option.Rel (fun v v' => ∀ material, ofDeclaration ctx material stage (some id) v' =
      ofDeclaration ctx material stage (some id) v)
      (declaration? ctx stage k id) (declaration? ctx stage k' id) := by
  simp only [read] at h
  cases hv : declaration? ctx stage k id with
  | none =>
      cases hv' : declaration? ctx stage k' id with
      | none => exact .none
      | some v' =>
          rw [hv, hv'] at h
          exact absurd (h "") (ofDeclaration_ne_unknown (some id) v' id)
  | some v =>
      cases hv' : declaration? ctx stage k' id with
      | none =>
          rw [hv, hv'] at h
          exact absurd (h "").symm (ofDeclaration_ne_unknown (some id) v id)
      | some v' =>
          rw [hv, hv'] at h
          exact .some h

end ShaderReference

namespace ReadContext

variable {ctx : ReadContext}

/-- Under every name of a stage the libraries have the same shaders as under its own name: an id is
found under both, with declarations that are read alike, or under neither. -/
def OneForAll (ctx : ReadContext) : Prop :=
  ∀ stage k id, Stage.ofName? k = some stage →
    Option.Rel (fun v v' => ∀ material,
      ShaderReference.ofDeclaration ctx material stage (some id) v' =
        ShaderReference.ofDeclaration ctx material stage (some id) v)
      (ShaderReference.declaration? ctx stage stage.name id)
      (ShaderReference.declaration? ctx stage k id)

/-- So it is when there are libraries under the stages' own names only. -/
theorem oneForAll_of_ownNames
    (h : ∀ k stage, Stage.ofName? k = some stage → k ≠ stage.name → ctx.library.value? k = none) :
    ctx.OneForAll := by
  intro stage k id hk
  have hsame : ShaderReference.declaration? ctx stage k id =
      ShaderReference.declaration? ctx stage stage.name id := by
    by_cases hname : k = stage.name
    · rw [hname]
    · rw [ShaderReference.declaration?, ShaderReference.declaration?, h k stage hk hname]
      cases ctx.library.value? stage.name <;> rfl
  rw [hsame]
  exact Result.rel_refl (fun _ _ => rfl) _

theorem OneForAll.read_ownName (h : ctx.OneForAll) (material : String) {stage : Stage}
    {k : String} (hk : Stage.ofName? k = some stage) (v : Json) :
    ShaderReference.read ctx material stage k v =
      ShaderReference.read ctx material stage stage.name v := by
  cases hv : v.text? with
  | none => exact ShaderReference.read_inPlace hv
  | some id =>
      obtain rfl := Json.eq_text hv
      exact ShaderReference.read_text_congr (h stage k id hk) fun hread => hread material

end ReadContext

/-! ### Materials -/

namespace Material

variable {ctx : ReadContext}

/-- A material with one shader, named by an id. -/
def withShader (material key id : String) : Json :=
  .object [("id", .text material), ("shaders", .object [(key, .text id)])]

/-- A material of one pass with one shader and nothing else. -/
def ofShader (material : String) (shader : ShaderReference) : Material where
  id := material
  passes := [{
    name? := none, shaders := [shader], states := {}, parameters := []
    topology := .triangle, bindings := [] }]
  vertexFormat? := none
  enabled := true
  versionHash := ""

theorem ofShader_injective (material : String) {x y : Except MaterialError ShaderReference}
    (h : x.map (ofShader material) = y.map (ofShader material)) : x = y := by
  cases x <;> cases y <;> simp_all [Except.map, ofShader]

theorem read_withShader {key : String} {stage : Stage} (h : Stage.ofName? key = some stage)
    (material id : String) :
    Material.read ctx (withShader material key id) =
      (ShaderReference.read ctx material stage key (.text id)).map (ofShader material) := by
  have hall : ShaderReference.readAll ctx material Pass.defaultLabel (.object [(key, .text id)]) =
      (ShaderReference.read ctx material stage key (.text id)).map fun shader => [shader] := by
    simp only [ShaderReference.readAll, ShaderReference.declarations, Result.ok_bind,
      ShaderReference.readEach, h]
    cases ShaderReference.read ctx material stage key (.text id) <;> rfl
  cases hs : ShaderReference.read ctx material stage key (.text id) <;>
    simp [Material.read, withShader, ofShader, Json.requiredText, Json.textField?, Json.field?,
      Json.arrayField?, Table.value?, Json.text?, Topology.read?, Parameter.readField,
      Binding.readField, StateReferences.readField, Pass.readAll, Pass.readSingle, hall, hs,
      Except.map]

/-- The material under another name of the stage. -/
theorem rewritten_withShader {key key' : String} (h : Stage.SameStage key key')
    (material id : String) :
    Fieldwise (Rewritten (ShaderReference.Respelled fun _ => True)) (withShader material key id)
      (withShader material key' id) := by
  have hkeys : ShaderReference.Respelled (fun _ => True) (.object [(key, .text id)])
      (.object [(key', .text id)]) :=
    .keys (.cons ⟨rfl, .inr ⟨h, trivial⟩⟩ .nil) (List.pairwise_singleton _ key')
  exact .object (.cons ⟨rfl, .other "id" _⟩ (.cons ⟨rfl, .shaders hkeys⟩ .nil))

/-- Materials whose shaders stand under other names of their stages are read alike, if the shaders
are declared in place.  Those that are named by ids are read alike, too, exactly if under every name
of a stage the libraries have the same shaders as under its own name. -/
theorem respelled_alike_iff (ctx : ReadContext) :
    (∀ v v', Fieldwise (Rewritten (ShaderReference.Respelled fun d => d.text? = none)) v v' →
      Material.read ctx v' = Material.read ctx v) ∧
    ((∀ v v', Fieldwise (Rewritten (ShaderReference.Respelled fun _ => True)) v v' →
      Material.read ctx v' = Material.read ctx v) ↔ ctx.OneForAll) := by
  refine ⟨fun v v' h => ?_, fun h stage k id hk => ?_, fun hone v v' h => ?_⟩
  · refine read_congr (ShaderReference.readAlike_respelled ?_) h
    intro material s k k' d hd _ _
    exact ShaderReference.read_inPlace hd
  · -- a material with this shader alone tells the spellings apart
    refine ShaderReference.declarations_of_read fun material => ?_
    have hname := Stage.ofName?_name stage
    have hsame := h _ _ (rewritten_withShader ⟨stage, hname, hk⟩ material id)
    rw [read_withShader hk, read_withShader hname] at hsame
    exact ofShader_injective material hsame
  · refine read_congr (ShaderReference.readAlike_respelled ?_) h
    intro material s k k' d _ hk hk'
    rw [hone.read_ownName material hk' d, hone.read_ownName material hk d]

/-! ### A library under another name -/

namespace FragmentLibrary

/-- A pixel shader in a library of some name. -/
def context (key : String) : ReadContext where
  source     := (({} : MemorySource).insertText "lit.wgsl" "").toSource
  shaderRoot := "."
  library    := [(key, .object [("lit", .object [("file", .text "lit.wgsl"),
    ("profile", .text "ps_6_0")])])]

/-- What is found under `fragment` by that name, and under `pixel` by either. -/
theorem found : Stage.ofName? "fragment" = some .pixel ∧ Stage.ofName? "pixel" = some .pixel ∧
    (Material.read (context "fragment") (withShader "m" "fragment" "lit")).isOk = true ∧
    Material.read (context "fragment") (withShader "m" "pixel" "lit") =
      .error (.unknownShader "m" "pixel" "lit") ∧
    (Material.read (context "pixel") (withShader "m" "pixel" "lit")).isOk = true := by
  decide +kernel

/-- The library is not seen by the stage's own name. -/
theorem spelling_matters : ¬ ∀ ctx v v',
    Fieldwise (Rewritten (ShaderReference.Respelled fun _ => True)) v v' →
      Material.read ctx v' = Material.read ctx v := by
  intro hall
  obtain ⟨hfragment, hpixel, hok, herror, -⟩ := found
  have hsame := hall (context "fragment") _ _
    (rewritten_withShader ⟨.pixel, hfragment, hpixel⟩ "m" "lit")
  rw [← hsame, herror] at hok
  cases hok

/-- A library under the stage's own name is seen by every name. -/
theorem pixel_library_seen : ∃ m,
    Material.read (context "pixel") (withShader "m" "pixel" "lit") = .ok m ∧
    Material.read (context "pixel") (withShader "m" "fragment" "lit") = .ok m := by
  obtain ⟨hfragment, hpixel, -, -, hok⟩ := found
  obtain ⟨m, hm⟩ := Result.isOk_iff.1 hok
  have hone : (context "pixel").OneForAll := by
    refine ReadContext.oneForAll_of_ownNames fun k stage hk hname => ?_
    have hne : "pixel" ≠ k := by
      rintro rfl
      rw [hpixel] at hk
      exact hname (Option.some.inj hk ▸ rfl)
    simp [context, Table.value?, hne]
  have hsame := (respelled_alike_iff (context "pixel")).2.2 hone _ _
    (rewritten_withShader ⟨.pixel, hpixel, hfragment⟩ "m" "lit")
  exact ⟨m, hm, hsame.trans hm⟩

end FragmentLibrary

end Material

end RenderMaterials
