import RenderMaterials.Proofs.Material.Listed
import RenderMaterials.Proofs.State.Listed
import RenderMaterials.Proofs.System.Catalog
import RenderMaterials.Source.Memory

/-!
# Documents — keyed and listed sections

Categories of state blocks and shader libraries can be written as objects or as lists, and so can
the shaders of a pass.  A document in which some of them are in the other form says the same: it
declares the same ids in the same order, its state blocks and its materials are the same or are
refused with the same errors, and it is loaded as the same catalog.

* `Document.Relisted`: what may be in the other form.
* `Document.declarations_congr`: the declared ids.
* `Document.check_congr`: what the checks report.
* `Document.relisted_alike`: all of it, with the load.
* `Document.BothForms.same_catalog`: a category, a library and the shaders of a pass in both forms.
-/

namespace RenderMaterials

open Json (Listed Fieldwise Itemwise)

namespace Document

/-- A field of a document whose categories, libraries and shaders may be in either form. -/
inductive RelistedField : String → Json → Json → Prop
  | materials {v v' : Json} (h : Itemwise (Fieldwise Material.Relisted) v v') :
      RelistedField "materials" v v'
  | states {v v' : Json} (h : Fieldwise (fun _ => Listed "id") v v') : RelistedField "states" v v'
  | shaders {v v' : Json} (h : Fieldwise (fun _ => Listed "id") v v') : RelistedField "shaders" v v'
  | other (key : String) (v : Json) : RelistedField key v v

/-- Documents of the same files with the same fields, some of them in the other form. -/
structure Relisted (d d' : Document) : Prop where
  root  : Fieldwise RelistedField (.object d.root) (.object d'.root)
  files : d'.files = d.files

namespace Relisted

variable {d d' : Document} (h : Relisted d d')
include h

/-! ### Sections -/

theorem value?_eq (key : String) (hkeys : key ∉ ["materials", "states", "shaders"]) :
    d'.root.value? key = d.root.value? key := by
  refine h.root.field?_eq .other fun x x' hx => ?_
  cases hx with
  | materials => simp at hkeys
  | states => simp at hkeys
  | shaders => simp at hkeys
  | other => rfl

theorem materials? : Option.Rel (Itemwise (Fieldwise Material.Relisted))
    (d.root.value? "materials") (d'.root.value? "materials") := by
  refine h.root.field? .other fun x x' hx => ?_
  generalize hkey : "materials" = key at hx
  cases hx with
  | materials hi => exact hi
  | states => exact absurd hkey (by decide)
  | shaders => exact absurd hkey (by decide)
  | other => exact .same x

/-- The categories of a section are in either form. -/
theorem categories? {key : String} (hkey : key = "states" ∨ key = "shaders") :
    Option.Rel (Fieldwise fun _ => Listed "id") (d.root.value? key) (d'.root.value? key) := by
  refine h.root.field? .other fun x x' hx => ?_
  cases hx with
  | materials => exact absurd hkey (by decide)
  | states hf => exact hf
  | shaders hf => exact hf
  | other => exact .same x

theorem materials : List.Forall₂ (Fieldwise Material.Relisted) d.materials d'.materials := by
  unfold Document.materials Document.items
  obtain ⟨hv, hv'⟩ | ⟨v, v', hv, hv', hi⟩ := Result.rel_cases h.materials?
  · rw [hv, hv']
    exact .nil
  · rw [hv, hv']
    exact hi.items .same

theorem renderPasses : d'.renderPasses = d.renderPasses := by
  rw [Document.renderPasses, Document.renderPasses, Document.items, Document.items,
    h.value?_eq "renderPasses" (by decide)]

/-- The categories of a section one by one. -/
theorem categories {key : String} (hkey : key = "states" ∨ key = "shaders") :
    Table.Related (fun _ => Listed "id") ((d.fields? key).getD []) ((d'.fields? key).getD []) := by
  unfold fields?
  obtain ⟨hv, hv'⟩ | ⟨v, v', hv, hv', hf⟩ := Result.rel_cases (h.categories? hkey)
  · rw [hv, hv']
    exact .nil
  · rw [hv, hv']
    cases hf with
    | same => exact .refl (fun _ => .same) _
    | object ho => exact ho

end Relisted

/-! ### Declared ids -/

/-- The keys of entries and the names of their list are the same ids. -/
theorem declaredIds_congr {v v' : Json} (h : Listed "id" v v') :
    declaredIds v' = declaredIds v := by
  cases h with
  | same => rfl
  | @items es hes =>
      have hnames : ∀ e ∈ es, (Json.item "id" e).textField? "id" = (some ∘ Prod.fst) e :=
        fun e he => Json.textField?_withField (hes e he) "id" e.1
      calc (es.map (Json.item "id")).filterMap (·.textField? "id")
          = es.filterMap (fun e => (Json.item "id" e).textField? "id") := List.filterMap_map
        _ = es.filterMap (some ∘ Prod.fst) := List.filterMap_congr hnames
        _ = Table.keys es := by rw [List.filterMap_eq_map]; rfl

theorem sectionIds_congr {label : String} {o o' : Option JsonObject}
    (h : Table.Related (fun _ => Listed "id") (o.getD []) (o'.getD [])) :
    sectionIds label o' = sectionIds label o := by
  unfold sectionIds
  rw [List.flatMap_def, List.flatMap_def]
  congr 1
  refine Result.map_congr (h.imp fun c c' hc => ?_)
  rw [hc.1, declaredIds_congr hc.2]

variable {d d' : Document}

theorem declarations_congr (h : Relisted d d') : d'.declarations = d.declarations := by
  have hids : d'.materials.map (·.textField? "id") = d.materials.map (·.textField? "id") :=
    Result.map_congr (h.materials.imp fun v v' hv =>
      Json.textField?_congr (Material.Rewritten.field?_eq (Material.rewritten_of_relisted hv) _
        (by decide) (by decide)))
  have hmaterials : ∀ d : Document,
      d.materials.filterMap (fun m => (m.textField? "id").map (DuplicateId.mk · "materials")) =
        (d.materials.map (·.textField? "id")).filterMap
          (Option.map (DuplicateId.mk · "materials")) :=
    fun d => by rw [List.filterMap_map]; rfl
  unfold declarations
  rw [hmaterials d', hids, ← hmaterials d, h.renderPasses, states?, states?, shaders?, shaders?,
    sectionIds_congr (h.categories (.inl rfl)), sectionIds_congr (h.categories (.inr rfl))]

/-! ### Checks -/

/-- Sections that no check of a document's form tells apart. -/
inductive SameForm : Option Json → Option Json → Prop
  | same (v : Option Json) : SameForm v v
  | list (vs vs' : List Json) : SameForm (some (.array vs)) (some (.array vs'))
  | fields (o o' : JsonObject) : SameForm (some (.object o)) (some (.object o'))

theorem schemaErrors_of_sameForm
    (h : ∀ key, SameForm (d.root.value? key) (d'.root.value? key)) :
    d'.schemaErrors = d.schemaErrors := by
  unfold schemaErrors
  dsimp only
  refine congrArg (List.map MaterialError.schema) (congrArg₂ _ (congrArg₂ _ ?_ ?_) ?_)
  all_goals
    refine List.filterMap_congr fun key _ => ?_
    have hkey := h key
    generalize d.root.value? key = a at hkey ⊢
    generalize d'.root.value? key = a' at hkey ⊢
    cases hkey <;> rfl

namespace Relisted

theorem sameForm (h : Relisted d d') (key : String) :
    SameForm (d.root.value? key) (d'.root.value? key) := by
  have hrel := h.root.field? .other (k := key)
    (S := fun x x' => SameForm (some x) (some x')) fun x x' hx => ?_
  · change Option.Rel _ (d.root.value? key) (d'.root.value? key) at hrel
    obtain ⟨hv, hv'⟩ | ⟨v, v', hv, hv', hx⟩ := Result.rel_cases hrel
    · rw [hv, hv']
      exact .same none
    · rw [hv, hv']
      exact hx
  · cases hx with
    | materials hi =>
        cases hi with
        | same => exact .same _
        | array => exact .list _ _
    | states hf =>
        cases hf with
        | same => exact .same _
        | object => exact .fields _ _
    | shaders hf =>
        cases hf with
        | same => exact .same _
        | object => exact .fields _ _
    | other => exact .same _

end Relisted

/-- The parameters of a material do not depend on how its shaders are written. -/
theorem parameterDeclarations_congr {S : Json → Json → Prop} {v v' : Json}
    (h : Fieldwise (Material.Rewritten S) v v') :
    parameterDeclarations v' = parameterDeclarations v := by
  have hown := Json.arrayField?_congr
    (Material.Rewritten.field?_eq h "parameters" (by decide) (by decide))
  have hpasses : List.Forall₂ (Fieldwise (Pass.Rewritten S))
      ((v.arrayField? "passes").getD []) ((v'.arrayField? "passes").getD []) := by
    unfold Json.arrayField?
    obtain ⟨hp, hp'⟩ | ⟨p, p', hp, hp', hi⟩ := Result.rel_cases (Material.Rewritten.passes? h)
    · rw [hp, hp']
      exact .nil
    · rw [hp, hp']
      exact hi.items .same
  unfold parameterDeclarations
  dsimp only
  rw [hown, List.flatMap_def, List.flatMap_def]
  congr 2
  refine Result.map_congr (hpasses.imp fun p p' hp => ?_)
  rw [Json.arrayField?_congr (Pass.Rewritten.field?_eq hp _ (by decide))]

theorem check_congr (h : Relisted d d') : d'.check = d.check := by
  have hparameters : d'.parameterErrors = d.parameterErrors := by
    rw [parameterErrors, parameterErrors, List.flatMap_def, List.flatMap_def,
      Result.map_congr (h.materials.imp fun _ _ hv =>
        parameterDeclarations_congr (Material.rewritten_of_relisted hv))]
  rw [check, check, schemaErrors_of_sameForm h.sameForm, hparameters, duplicates, duplicates,
    declarations_congr h]

/-! ### Loads -/

/-- What the materials of both are read against. -/
theorem alike_ofDocument (h : Relisted d d') (src : Source) (shaderRoot : String) :
    (ReadContext.ofDocument src shaderRoot d).Alike (.ofDocument src shaderRoot d') where
  contains _ := rfl
  describe _ := rfl
  shaderRoot := rfl
  globalDefines := by
    simp only [ReadContext.ofDocument, defines?, fields?, h.value?_eq "defines" (by decide)]
  library := h.categories (.inr rfl)

/-- The two forms say the same.  The same ids are declared again, the blocks of the states are the
same, the materials are one by one the same, and the catalog is the same; and where one of them is
refused, so is the other, with the same error. -/
theorem relisted_alike (h : Relisted d d') (src : Source) :
    d'.duplicates = d.duplicates ∧
    StateRegistry.read d'.states? = StateRegistry.read d.states? ∧
    (∀ shaderRoot, List.Forall₂ (fun v v' => Material.read (.ofDocument src shaderRoot d') v' =
      Material.read (.ofDocument src shaderRoot d) v) d.materials d'.materials) ∧
    ∀ config, Catalog.read config src d' = Catalog.read config src d := by
  have hstates : StateRegistry.read d'.states? = StateRegistry.read d.states? :=
    StateRegistry.read_congr (h.categories (.inl rfl))
  have hmaterials := fun shaderRoot => h.materials.imp fun v v' hv =>
    Material.read_relisted (alike_ofDocument h src shaderRoot) hv
  refine ⟨?_, hstates, hmaterials, fun config => ?_⟩
  · rw [duplicates, duplicates, declarations_congr h]
  · have hread := Result.map_congr (hmaterials config.shaderRoot)
    simp only [Catalog.read, SystemConfig.checkErrors, check_congr h, hstates, hread,
      h.renderPasses, h.files]

/-! ### A document in both forms -/

namespace BothForms

/-- A block of states under its id. -/
def solid : String × Json := ("solid", .object [("cullMode", .text "Back")])

/-- An item of a library under its id. -/
def lit : String × Json :=
  ("lit", .object [("file", .text "lit.wgsl"), ("profile", .text "vs_6_0")])

/-- A declaration under its stage. -/
def pixel : String × Json :=
  ("pixel", .object [("file", .text "lit.wgsl"), ("profile", .text "ps_6_0")])

/-- A material with its pixel shader in one of its passes. -/
def material (shaders : Json) : Json :=
  .object [("id", .text "m"), ("shaders", .object [("vertex", .text "lit")]), ("passes", .array [
    .object [("name", .text "depth"),
      ("states", .object [("rasterizer", .text "solid")])],
    .object [("name", .text "color"), ("shaders", shaders)]])]

/-- A document with a category of states and a library. -/
def document (states library shaders : Json) : Document where
  root := [("states", .object [("rasterizerStates", states)]),
    ("shaders", .object [("vertex", library)]), ("materials", .array [material shaders]),
    ("renderPasses", .array [.object [("name", .text "depth")], .object [("name", .text "color")]])]

/-- Everything under its name. -/
def keyed : Document := document (.object [solid]) (.object [lit]) (.object [pixel])

/-- Everything in a list. -/
def listed : Document :=
  document (.array [Json.item "id" solid]) (.array [Json.item "id" lit])
    (.array [Json.item "stage" pixel])

def source : Source := (({} : MemorySource).insertText "lit.wgsl" "").toSource

theorem relisted_material {shaders shaders' : Json} (h : Listed "stage" shaders shaders') :
    Fieldwise Material.Relisted (material shaders) (material shaders') :=
  .object (.cons ⟨rfl, .other _ _⟩ (.cons ⟨rfl, .other _ _⟩ (.cons ⟨rfl, .passes (.array
    (.cons (.same _) (.cons (.object (.cons ⟨rfl, .other _ _⟩ (.cons ⟨rfl, .shaders h⟩ .nil)))
      .nil)))⟩ .nil)))

theorem listed_singleton (key : String) {e : String × Json} (he : e.2.isObject = true) :
    Listed key (.object [e]) (.array [Json.item key e]) :=
  .items (List.forall_mem_singleton.2 he)

theorem relisted : Relisted keyed listed where
  root :=
    .object (.cons ⟨rfl, .states (.object (.cons ⟨rfl, listed_singleton "id" rfl⟩ .nil))⟩
      (.cons ⟨rfl, .shaders (.object (.cons ⟨rfl, listed_singleton "id" rfl⟩ .nil))⟩
        (.cons ⟨rfl, .materials (.array
          (.cons (relisted_material (listed_singleton "stage" rfl)) .nil))⟩
          (.cons ⟨rfl, .other _ _⟩ .nil))))
  files := rfl

/-- Both are loaded, as the same catalog. -/
theorem same_catalog : Relisted keyed listed ∧
    Catalog.read {} source listed = Catalog.read {} source keyed ∧
    (Catalog.read {} source keyed).isOk = true :=
  ⟨relisted, (relisted_alike relisted source).2.2.2 {}, by decide +kernel⟩

end BothForms

end Document

end RenderMaterials
