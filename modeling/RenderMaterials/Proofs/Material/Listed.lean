import RenderMaterials.Proofs.Material.Rewritten

/-!
# Reading materials — keyed and listed shaders

The shaders of a pass can be written under their stages or as a list, and so can the items of a
shader library under their ids.  A declaration is read for its file, profile, entry point and
defines only.  So a material with its shaders in the other form, read with libraries in the other
form, is the same material, or is refused with the same error.

* `ShaderReference.ofDeclaration_congr`: the fields that a declaration is read for.
* `ReadContext.Alike`: contexts with the same shader files and defines, and libraries in either
  form.
* `ShaderReference.readAll_congr`, `Material.read_relisted`: shaders and materials are read alike.
-/

namespace RenderMaterials

open Json (AgreeBut Listed Fieldwise Itemwise)

/-! ### Contexts -/

/-- Contexts with the same shader files and defines, and with libraries in either form. -/
structure ReadContext.Alike (ctx ctx' : ReadContext) : Prop where
  contains      : ∀ file, ctx'.source.contains file = ctx.source.contains file
  describe      : ∀ file, ctx'.source.describe file = ctx.source.describe file
  shaderRoot    : ctx'.shaderRoot = ctx.shaderRoot
  globalDefines : ctx'.globalDefines = ctx.globalDefines
  library       : Table.Related (fun _ => Listed "id") ctx.library ctx'.library

/-! ### Shaders -/

namespace ShaderReference

variable {ctx ctx' : ReadContext} {material pass : String} {v v' : Json}

/-- A declaration is read for some fields only. -/
theorem ofDeclaration_congr (hc : ctx.Alike ctx') (stage : Stage) (id? : Option String)
    (h : ∀ key ∈ ["file", "profile", "entry", "entryPoint", "defines"],
      v'.field? key = v.field? key) :
    ofDeclaration ctx' material stage id? v' = ofDeclaration ctx material stage id? v := by
  have hfile := Json.requiredText_congr (h "file" (by simp))
  have hprofile := Json.requiredText_congr (h "profile" (by simp))
  have hdefines : declaredDefines v' = declaredDefines v := by
    rw [declaredDefines, declaredDefines, h "defines" (by simp)]
  simp only [ofDeclaration, hfile, hprofile, hdefines, h "entry" (by simp),
    h "entryPoint" (by simp), hc.contains, hc.describe, hc.shaderRoot, hc.globalDefines]

/-- A declaration whose `id` or `stage` is another, apart from the id that it is read with. -/
theorem ofDeclaration_agreeBut (hc : ctx.Alike ctx') (stage : Stage) (id? : Option String)
    {key : String} (hkey : key ∉ ["file", "profile", "entry", "entryPoint", "defines"])
    (h : AgreeBut key v v') :
    ofDeclaration ctx' material stage id? v' = ofDeclaration ctx material stage id? v := by
  refine ofDeclaration_congr hc stage id? fun k hk => h k ?_
  rintro rfl
  exact hkey hk

/-! ### Items of a library -/

/-- The item of an id is the same in either form, but for its `id`. -/
theorem libraryItem?_congr (h : Listed "id" v v') (id : String) :
    Option.Rel (AgreeBut "id") (libraryItem? id v) (libraryItem? id v') := by
  cases h with
  | same => exact Result.rel_refl (.refl "id") (libraryItem? id v)
  | @items es hes =>
      simp only [libraryItem?]
      induction es with
      | nil => exact .none
      | cons e es ih =>
          obtain ⟨name, w⟩ := e
          have hw : w.isObject = true := hes (name, w) List.mem_cons_self
          have hname := Json.textField?_withField hw "id" name
          have hrest := ih fun e' he' => hes e' (List.mem_cons_of_mem _ he')
          by_cases hid : name = id
          · subst hid
            simpa [Table.value?, Json.item, hname] using
              Option.Rel.some (Json.agreeBut_withField w "id" (.text name))
          · simpa [Table.value?, Json.item, hname, hid] using hrest

theorem declaration?_congr (hc : ctx.Alike ctx') (stage : Stage) (written id : String) :
    Option.Rel (AgreeBut "id") (declaration? ctx stage written id)
      (declaration? ctx' stage written id) :=
  rel_declaration? hc.library libraryItem?_congr stage written id

/-! ### Declarations in a pass -/

/-- A declaration as it is, or with its stage put in a field. -/
inductive Staged : Json → Json → Prop
  | same (v : Json) : Staged v v
  | field {v : Json} (h : v.isObject = true) (x : Json) : Staged v (v.withField "stage" x)

theorem read_congr (hc : ctx.Alike ctx') (stage : Stage) (written : String) (h : Staged v v') :
    read ctx' material stage written v' = read ctx material stage written v := by
  cases h with
  | field hv x =>
      obtain ⟨fields, rfl⟩ := Json.exists_object hv
      have hagree := Json.agreeBut_withField (.object fields) "stage" x
      have hid : (Json.withField (.object fields) "stage" x).textField? "id" =
          (Json.object fields).textField? "id" := Json.textField?_congr (hagree "id" (by decide))
      change ofDeclaration ctx' material stage
        ((Json.withField (.object fields) "stage" x).textField? "id") _ = _
      rw [hid, ofDeclaration_agreeBut hc stage _ (by decide) hagree]
      rfl
  | same =>
      cases htext : v.text? with
      | none =>
          rw [read_of_inPlace htext, read_of_inPlace htext]
          exact ofDeclaration_congr hc stage _ fun _ _ => rfl
      | some id =>
          obtain rfl := Json.eq_text htext
          exact read_text_congr (declaration?_congr hc stage written id) fun hagree =>
            ofDeclaration_agreeBut hc stage (some id) (by decide) hagree

theorem readEach_congr (hc : ctx.Alike ctx') {ds ds' : List (String × Json)}
    (h : Table.Related (fun _ => Staged) ds ds') (found : List ShaderReference) :
    readEach ctx' material pass found ds' = readEach ctx material pass found ds :=
  readEach_related (fun hv stage written => read_congr hc stage written hv) h found

/-- The keyed shaders of a pass and the items of their list are the same declarations. -/
theorem exists_declarations {es : List (String × Json)} (h : ∀ e ∈ es, e.2.isObject = true)
    (material : String) :
    ∃ ds', declarations material (.array (es.map (Json.item "stage"))) = .ok ds' ∧
      Table.Related (fun _ => Staged) es ds' := by
  simp only [declarations]
  induction es with
  | nil => exact ⟨[], rfl, .nil⟩
  | cons e es ih =>
      obtain ⟨ds', hds', hrel⟩ := ih fun e' he' => h e' (List.mem_cons_of_mem e he')
      have hv : e.2.isObject = true := h e List.mem_cons_self
      have hstage : (Json.item "stage" e).requiredText "stage" s!"material '{material}' shader" =
          .ok e.1 := by
        have hname := Json.textField?_withField hv "stage" e.1
        rw [Json.requiredText, Json.item, hname]
      refine ⟨(e.1, Json.item "stage" e) :: ds', ?_, .cons ⟨rfl, .field hv _⟩ hrel⟩
      rw [List.map_cons, List.mapM_cons, hstage, hds']
      rfl

/-- The shaders of a pass are read alike from either form. -/
theorem readAll_congr (hc : ctx.Alike ctx') (h : Listed "stage" v v') :
    readAll ctx' material pass v' = readAll ctx material pass v := by
  cases h with
  | same =>
      unfold readAll
      cases declarations material v with
      | error e => rfl
      | ok ds => exact readEach_congr hc (.refl (fun _ => .same) ds) []
  | items hes =>
      obtain ⟨ds', hds', hrel⟩ := exists_declarations hes material
      rw [readAll, hds', Result.ok_bind]
      exact readEach_congr hc hrel []

theorem readAlike (hc : ctx.Alike ctx') : ReadAlike ctx ctx' (Listed "stage") where
  refl := .same
  read h _ _ := readAll_congr hc h

end ShaderReference

/-! ### Passes and materials -/

/-- A field of a pass whose shaders may be in either form. -/
inductive Pass.Relisted : String → Json → Json → Prop
  | shaders {v v' : Json} (h : Listed "stage" v v') : Relisted "shaders" v v'
  | other (key : String) (v : Json) : Relisted key v v

/-- A field of a material whose shaders may be in either form, and so may those of its passes. -/
inductive Material.Relisted : String → Json → Json → Prop
  | shaders {v v' : Json} (h : Listed "stage" v v') : Relisted "shaders" v v'
  | passes {v v' : Json} (h : Itemwise (Fieldwise Pass.Relisted) v v') : Relisted "passes" v v'
  | other (key : String) (v : Json) : Relisted key v v

section Relisted

variable {v v' : Json}

theorem Pass.rewritten_of_relisted (h : Fieldwise Pass.Relisted v v') :
    Fieldwise (Pass.Rewritten (Listed "stage")) v v' := by
  refine h.mono fun {key v v'} hf => ?_
  cases hf with
  | shaders h => exact .shaders h
  | other => exact .other key v

theorem Material.rewritten_of_relisted (h : Fieldwise Material.Relisted v v') :
    Fieldwise (Material.Rewritten (Listed "stage")) v v' := by
  refine h.mono fun {key v v'} hf => ?_
  cases hf with
  | shaders h => exact .shaders h
  | passes h => exact .passes (h.mono Pass.rewritten_of_relisted)
  | other => exact .other key v

/-- A material is read alike, whichever form its shaders and the libraries are in. -/
theorem Material.read_relisted {ctx ctx' : ReadContext} (hc : ctx.Alike ctx')
    (h : Fieldwise Material.Relisted v v') : Material.read ctx' v' = Material.read ctx v :=
  read_congr (ShaderReference.readAlike hc) (rewritten_of_relisted h)

end Relisted

end RenderMaterials
