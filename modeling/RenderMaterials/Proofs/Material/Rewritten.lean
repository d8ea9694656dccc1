import RenderMaterials.Material.Read
import RenderMaterials.Proofs.Json.Listed

/-!
# Reading materials — shaders written in another way

The shaders of a pass stand in one field, of the pass or of its material.  When they can be written
in two ways that are read alike, materials that differ in nothing else are read alike too.

* `Pass.Rewritten`, `Material.Rewritten`: fields that differ in how shaders are written.
* `ShaderReference.rel_declaration?`, `ShaderReference.read_text_congr`,
  `ShaderReference.readEach_related`: declarations that are read alike one by one are so when named
  by ids, and in a pass.
* `ShaderReference.ReadAlike`: ways of writing shaders that are read alike.
* `Material.read_congr`: so are the materials.
-/

namespace RenderMaterials

open Json (Fieldwise Itemwise)

/-! ### Fields of a value -/

namespace Json

variable {v v' : Json} {key : String}

theorem textField?_congr (h : v'.field? key = v.field? key) :
    v'.textField? key = v.textField? key := by
  rw [textField?, textField?, h]

theorem arrayField?_congr (h : v'.field? key = v.field? key) :
    v'.arrayField? key = v.arrayField? key := by
  rw [arrayField?, arrayField?, h]

theorem requiredText_congr (h : v'.field? key = v.field? key) (context : String) :
    v'.requiredText key context = v.requiredText key context := by
  rw [requiredText, requiredText, textField?_congr h]

theorem rel_orElse {R : Json → Json → Prop} {a b a' b' : Option Json} (ha : Option.Rel R a a')
    (hb : Option.Rel R b b') : Option.Rel R (a <|> b) (a' <|> b') := by
  cases ha with
  | none => exact hb
  | some h => exact .some h

end Json

/-! ### Fields of passes and materials -/

/-- A field of a pass whose shaders may be written in another way. -/
inductive Pass.Rewritten (S : Json → Json → Prop) : String → Json → Json → Prop
  | shaders {v v' : Json} (h : S v v') : Rewritten S "shaders" v v'
  | other (key : String) (v : Json) : Rewritten S key v v

/-- A field of a material whose shaders may be written in another way, and so may those of its
passes. -/
inductive Material.Rewritten (S : Json → Json → Prop) : String → Json → Json → Prop
  | shaders {v v' : Json} (h : S v v') : Rewritten S "shaders" v v'
  | passes {v v' : Json} (h : Itemwise (Fieldwise (Pass.Rewritten S)) v v') :
      Rewritten S "passes" v v'
  | other (key : String) (v : Json) : Rewritten S key v v

/-- Ways of writing the shaders of a pass that are read alike. -/
structure ShaderReference.ReadAlike (ctx ctx' : ReadContext) (S : Json → Json → Prop) : Prop where
  refl : ∀ v, S v v
  read : ∀ {v v'}, S v v' → ∀ material pass,
    readAll ctx' material pass v' = readAll ctx material pass v

variable {ctx ctx' : ReadContext} {S : Json → Json → Prop} {material : String}
  {v v' whole whole' : Json}

/-! ### Declarations -/

namespace ShaderReference

variable {R : Json → Json → Prop} {stage : Stage} {written written' pass : String}

/-- Related libraries, with related items, give related declarations. -/
theorem rel_declaration? (hlibrary : Table.Related (fun _ => S) ctx.library ctx'.library)
    (hitem : ∀ {v v'}, S v v' → ∀ id, Option.Rel R (libraryItem? id v) (libraryItem? id v'))
    (stage : Stage) (written id : String) :
    Option.Rel R (declaration? ctx stage written id) (declaration? ctx' stage written id) := by
  have hfound := Json.rel_orElse (hlibrary.value? written) (hlibrary.value? stage.name)
  obtain ⟨hv, hv'⟩ | ⟨v, v', hv, hv', h⟩ := Result.rel_cases hfound
  · rw [declaration?, declaration?, hv, hv']
    exact .none
  · rw [declaration?, declaration?, hv, hv']
    exact hitem h id

/-- An id is read alike when it names declarations that are. -/
theorem read_text_congr {id : String}
    (h : Option.Rel R (declaration? ctx stage written id) (declaration? ctx' stage written' id))
    (hR : ∀ {v v'}, R v v' → ofDeclaration ctx' material stage (some id) v' =
      ofDeclaration ctx material stage (some id) v) :
    read ctx' material stage written' (.text id) = read ctx material stage written (.text id) := by
  simp only [read]
  obtain ⟨hv, hv'⟩ | ⟨v, v', hv, hv', hrel⟩ := Result.rel_cases h
  · rw [hv, hv']
  · rw [hv, hv']
    exact hR hrel

/-- Declarations under the same stages that are read alike one by one are read alike in a pass. -/
theorem readEach_related
    (hread : ∀ {v v'}, R v v' → ∀ stage written,
      read ctx' material stage written v' = read ctx material stage written v)
    {ds ds' : List (String × Json)} (h : Table.Related (fun _ => R) ds ds')
    (found : List ShaderReference) :
    readEach ctx' material pass found ds' = readEach ctx material pass found ds := by
  induction h generalizing found with
  | nil => rfl
  | @cons d d' ds ds' hd _ ih =>
      obtain ⟨written, v⟩ := d
      obtain ⟨written', v'⟩ := d'
      obtain ⟨rfl, hv⟩ := hd
      simp only [readEach, hread hv, ih]

end ShaderReference

/-! ### Passes -/

namespace Pass

theorem Rewritten.field?_eq (h : Fieldwise (Pass.Rewritten S) v v') (key : String)
    (hk : key ≠ "shaders") : v'.field? key = v.field? key := by
  refine h.field?_eq .other fun x x' hx => ?_
  cases hx with
  | shaders => exact absurd rfl hk
  | other => rfl

theorem Rewritten.shaders? (hS : ∀ v, S v v) (h : Fieldwise (Pass.Rewritten S) v v') :
    Option.Rel S (v.field? "shaders") (v'.field? "shaders") := by
  refine h.field? .other fun x x' hx => ?_
  cases hx with
  | shaders hx => exact hx
  | other => exact hS x

/-- A pass is read alike, however its shaders or those of its material are written. -/
theorem read_congr (hS : ShaderReference.ReadAlike ctx ctx' S)
    (hwhole : Option.Rel S (whole.field? "shaders") (whole'.field? "shaders"))
    (defaults : PassDefaults) (h : Fieldwise (Pass.Rewritten S) v v') :
    Pass.read ctx' material whole' defaults v' = Pass.read ctx material whole defaults v := by
  have hname := Json.textField?_congr (Rewritten.field?_eq h "name" (by decide))
  have htopology := Rewritten.field?_eq h "primitiveTopology" (by decide)
  have htopology' := Rewritten.field?_eq h "topology" (by decide)
  have hparameters := Json.arrayField?_congr (Rewritten.field?_eq h "parameters" (by decide))
  have hbindings := Json.arrayField?_congr (Rewritten.field?_eq h "bindings" (by decide))
  have hstates := Rewritten.field?_eq h "states" (by decide)
  simp only [Pass.read, hname, htopology, htopology', Parameter.readField, hparameters,
    Binding.readField, hbindings, StateReferences.readField, hstates]
  obtain ⟨hs, hs'⟩ | ⟨s, s', hs, hs', hread⟩ :=
    Result.rel_cases (Json.rel_orElse (Rewritten.shaders? hS.refl h) hwhole)
  · simp only [hs, hs']
  · simp only [hs, hs', hS.read hread]

end Pass

/-! ### Materials -/

namespace Material

theorem Rewritten.field?_eq (h : Fieldwise (Material.Rewritten S) v v') (key : String)
    (hs : key ≠ "shaders") (hp : key ≠ "passes") : v'.field? key = v.field? key := by
  refine h.field?_eq .other fun x x' hx => ?_
  cases hx with
  | shaders => exact absurd rfl hs
  | passes => exact absurd rfl hp
  | other => rfl

theorem Rewritten.shaders? (hS : ∀ v, S v v) (h : Fieldwise (Material.Rewritten S) v v') :
    Option.Rel S (v.field? "shaders") (v'.field? "shaders") := by
  refine h.field? .other fun x x' hx => ?_
  generalize hkey : "shaders" = key at hx
  cases hx with
  | shaders hx => exact hx
  | passes => exact absurd hkey (by decide)
  | other => exact hS x

theorem Rewritten.passes? (h : Fieldwise (Material.Rewritten S) v v') :
    Option.Rel (Itemwise (Fieldwise (Pass.Rewritten S))) (v.field? "passes")
      (v'.field? "passes") := by
  refine h.field? .other fun x x' hx => ?_
  generalize hkey : "passes" = key at hx
  cases hx with
  | shaders => exact absurd hkey (by decide)
  | passes hi => exact hi
  | other => exact .same x

/-- The only pass of a material is read alike. -/
theorem readSingle_congr (hS : ShaderReference.ReadAlike ctx ctx' S)
    (h : Fieldwise (Material.Rewritten S) v v') (defaults : PassDefaults) :
    Pass.readSingle ctx' material v' defaults = Pass.readSingle ctx material v defaults := by
  have hname :=
    Json.textField?_congr (Rewritten.field?_eq h "pass" (by decide) (by decide))
  have hbindings :=
    Json.arrayField?_congr (Rewritten.field?_eq h "bindings" (by decide) (by decide))
  simp only [Pass.readSingle, hname, Binding.readField, hbindings]
  obtain ⟨hs, hs'⟩ | ⟨s, s', hs, hs', hread⟩ :=
    Result.rel_cases (Rewritten.shaders? hS.refl h)
  · simp only [hs, hs']
  · simp only [hs, hs', hS.read hread]

/-- The passes of a material are read alike. -/
theorem readAll_congr (hS : ShaderReference.ReadAlike ctx ctx' S)
    (h : Fieldwise (Material.Rewritten S) v v') (defaults : PassDefaults) :
    Pass.readAll ctx' material v' defaults = Pass.readAll ctx material v defaults := by
  have heach : ∀ {vs vs' : List Json}, List.Forall₂ (Fieldwise (Pass.Rewritten S)) vs vs' →
      vs'.mapM (Pass.read ctx' material v' defaults) =
        vs.mapM (Pass.read ctx material v defaults) :=
    fun hvs => Result.mapM_congr (hvs.imp fun _ _ hp =>
      Pass.read_congr hS (Rewritten.shaders? hS.refl h) defaults hp)
  unfold Pass.readAll
  obtain ⟨hp, hp'⟩ | ⟨x, x', hp, hp', hx⟩ := Result.rel_cases (Rewritten.passes? h)
  · simp only [hp, hp', readSingle_congr hS h]
  · rw [hp, hp']
    cases hx with
    | @array vs vs' hvs =>
        have hempty : vs'.isEmpty = vs.isEmpty := by cases hvs <;> rfl
        simp only [heach hvs, hempty]
    | same =>
        -- the passes are the same, but the rest of their material need not be
        cases x with
        | array items => simp only [heach (List.forall₂_same.2 fun p _ => Fieldwise.same p)]
        | null => rfl
        | bool b => rfl
        | number n => rfl
        | text s => rfl
        | object fields => rfl

/-- A material is read alike, however its shaders are written. -/
theorem read_congr (hS : ShaderReference.ReadAlike ctx ctx' S)
    (h : Fieldwise (Material.Rewritten S) v v') :
    Material.read ctx' v' = Material.read ctx v := by
  have hother : ∀ key, key ≠ "shaders" → key ≠ "passes" → v'.field? key = v.field? key :=
    Rewritten.field?_eq h
  have hid := Json.requiredText_congr (hother "id" (by decide) (by decide)) "material"
  have hparameters :=
    Json.arrayField?_congr (hother "parameters" (by decide) (by decide))
  have hformat := Json.textField?_congr (hother "vertexFormat" (by decide) (by decide))
  have hversion := Json.textField?_congr (hother "versionHash" (by decide) (by decide))
  simp only [Material.read, hid, hother "primitiveTopology" (by decide) (by decide),
    Parameter.readField, hparameters, StateReferences.readField,
    hother "states" (by decide) (by decide), readAll_congr hS h, hformat, hversion,
    hother "enabled" (by decide) (by decide)]

end Material

end RenderMaterials
