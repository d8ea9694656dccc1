import RenderMaterials.Proofs.State.Inheritance
import RenderMaterials.Proofs.System.Catalog
import RenderMaterials.Source.Memory

/-!
# Catalogs that were loaded — repeated declarations

An id may be declared more than once in a section, as long as the configuration lets it pass.  Of
materials, render passes and the items of a shader library the first declaration counts.  Of state
blocks the last one counts, for they are put into a table before any of them is looked at.

* `material?_foldl`, `renderPass?_foldl`: what an id leads to after entries were added one by one.
* `lookups_of_read`: the look-ups of a catalog as look-ups of what was read.
* `declarations_of_load`: which declaration counts in each section of a document.
* `RepeatedBlock.first_block_dropped`: a state block that is declared twice.
-/

namespace RenderMaterials

theorem Json.requiredText_eq_ok {v : Json} {field context text : String} :
    v.requiredText field context = .ok text ↔ v.textField? field = some text := by
  unfold requiredText
  cases v.textField? field <;> simp

namespace Catalog

variable {c : Catalog}

/-! ### Entries added one by one -/

section Lookup

variable {α : Type} {name : α → String} {t : Table String Nat} {as : List α}

/-- An entry with a new name is found by it, and the others as before. -/
theorem lookup_append (a : α)
    (h : ∀ k i, t.value? k = some i → ∃ b, as[i]? = some b ∧ name b = k)
    (hnew : t.has (name a) = false) (k : String) :
    ((t.assign (name a) as.length).value? k).bind (fun i => (as ++ [a])[i]?) =
      ((t.value? k).bind fun i => as[i]?).or (if name a = k then some a else none) := by
  rw [Table.value?_assign]
  by_cases hk : name a = k
  · subst hk
    have hnone : t.value? (name a) = none := by simpa [Table.has] using hnew
    simp [hnone]
  · rw [if_neg hk, if_neg hk, Option.or_none]
    cases hv : t.value? k with
    | none => rfl
    | some i =>
        obtain ⟨b, hb, -⟩ := h k i hv
        simp only [Option.bind_some]
        rw [List.getElem?_append_left (List.getElem?_eq_some_iff.1 hb).1]

end Lookup

theorem material?_addMaterial (h : c.Indexed) (m : Material) (id : String) :
    (c.addMaterial m).material? id =
      (c.material? id).or (if m.enabled && m.id = id then some m else none) := by
  unfold addMaterial
  split
  · next hskip =>
      by_cases he : (m.enabled && decide (m.id = id)) = true
      · obtain ⟨henabled, rfl⟩ : m.enabled = true ∧ m.id = id := by simpa using he
        have hhas : c.materialIndex.has m.id = true := by simpa [henabled] using hskip
        obtain ⟨n, -, hn⟩ := h.exists_material hhas
        rw [hn, Option.some_or]
      · rw [if_neg he, Option.or_none]
  · next hnew =>
      obtain ⟨henabled, hhas⟩ : m.enabled = true ∧ c.materialIndex.has m.id = false := by
        simpa using hnew
      have := lookup_append m h.material hhas id
      simpa [material?, henabled] using this

theorem renderPass?_addRenderPass (h : c.Indexed) (r : RenderPass) (name : String) :
    (c.addRenderPass r).renderPass? name =
      (c.renderPass? name).or (if r.name = name then some r else none) := by
  unfold addRenderPass
  split
  · next hhas =>
      by_cases he : r.name = name
      · subst he
        obtain ⟨n, -, hn⟩ := h.exists_renderPass hhas
        rw [hn, Option.some_or]
      · rw [if_neg he, Option.or_none]
  · next hnew =>
      exact lookup_append r h.renderPass (by simpa using hnew) name

theorem material?_foldl (h : c.Indexed) (ms : List Material) (id : String) :
    (ms.foldl addMaterial c).material? id =
      (c.material? id).or (ms.find? fun m => m.enabled && m.id = id) := by
  induction ms generalizing c with
  | nil => rw [List.foldl_nil, List.find?_nil, Option.or_none]
  | cons m ms ih =>
      rw [List.foldl_cons, ih (h.addMaterial m), material?_addMaterial h, Option.or_assoc,
        List.find?_cons]
      cases hm : m.enabled && decide (m.id = id) <;> simp

theorem renderPass?_foldl (h : c.Indexed) (rs : List RenderPass) (name : String) :
    (rs.foldl addRenderPass c).renderPass? name =
      (c.renderPass? name).or (rs.find? fun r => r.name = name) := by
  induction rs generalizing c with
  | nil => rw [List.foldl_nil, List.find?_nil, Option.or_none]
  | cons r rs ih =>
      rw [List.foldl_cons, ih (h.addRenderPass r), renderPass?_addRenderPass h, Option.or_assoc,
        List.find?_cons]
      by_cases hr : r.name = name <;> simp [hr]

/-! Materials and render passes leave each other and the state blocks alone. -/

theorem foldl_addMaterial_frame (c : Catalog) (ms : List Material) :
    (∀ name, (ms.foldl addMaterial c).renderPass? name = c.renderPass? name) ∧
      (ms.foldl addMaterial c).states = c.states := by
  induction ms generalizing c with
  | nil => exact ⟨fun _ => rfl, rfl⟩
  | cons m ms ih =>
      have hone : (∀ name, (c.addMaterial m).renderPass? name = c.renderPass? name) ∧
          (c.addMaterial m).states = c.states := by
        unfold addMaterial
        split <;> exact ⟨fun _ => rfl, rfl⟩
      exact ⟨fun name => ((ih _).1 name).trans (hone.1 name), (ih _).2.trans hone.2⟩

theorem foldl_addRenderPass_frame (c : Catalog) (rs : List RenderPass) :
    (∀ id, (rs.foldl addRenderPass c).material? id = c.material? id) ∧
      (rs.foldl addRenderPass c).states = c.states := by
  induction rs generalizing c with
  | nil => exact ⟨fun _ => rfl, rfl⟩
  | cons r rs ih =>
      have hone : (∀ id, (c.addRenderPass r).material? id = c.material? id) ∧
          (c.addRenderPass r).states = c.states := by
        unfold addRenderPass
        split <;> exact ⟨fun _ => rfl, rfl⟩
      exact ⟨fun id => ((ih _).1 id).trans (hone.1 id), (ih _).2.trans hone.2⟩

/-! ### Declarations of a document -/

/-- If the first declaration of a name can be read, it gives the first entry of this name. -/
theorem find?_of_first {α : Type} {f : Json → Except MaterialError α} {key id : String}
    {vs : List Json} {v : Json} {a : α} {q : α → Bool}
    (hq : ∀ u b, f u = .ok b → q b = true → u.textField? key = some id)
    (hfirst : vs.find? (fun u => u.textField? key = some id) = some v) (hv : f v = .ok a)
    (ha : q a = true) : ((vs.map f).filterMap Except.toOption).find? q = some a := by
  obtain ⟨-, before, after, rfl, hbefore⟩ := List.find?_eq_some_iff_append.1 hfirst
  have hnone : ((before.map f).filterMap Except.toOption).find? q = none := by
    rw [List.find?_eq_none]
    intro b hb hqb
    obtain ⟨r, hr, hrb⟩ := List.mem_filterMap.1 hb
    obtain ⟨u, hu, rfl⟩ := List.mem_map.1 hr
    simpa [hq u b (Result.toOption_eq_some.1 hrb) hqb] using hbefore u hu
  have hsome : Except.toOption (f v) = some a := Result.toOption_eq_some.2 hv
  rw [List.map_append, List.filterMap_append, List.find?_append, hnone, Option.none_or,
    List.map_cons, List.filterMap_cons_some hsome, List.find?_cons_of_pos ha]

theorem id_of_read {ctx : ReadContext} {v : Json} {m : Material}
    (h : Material.read ctx v = .ok m) : v.textField? "id" = some m.id := by
  obtain ⟨id, hid, h⟩ := Result.bind_eq_ok.1 h
  obtain ⟨topology, -, h⟩ := Result.bind_eq_ok.1 h
  obtain ⟨parameters, -, h⟩ := Result.bind_eq_ok.1 h
  obtain ⟨passes, -, h⟩ := Result.bind_eq_ok.1 h
  obtain rfl := Except.ok.inj h
  exact Json.requiredText_eq_ok.1 hid

theorem name_of_read {v : Json} {r : RenderPass} (h : RenderPass.read v = .ok r) :
    v.textField? "name" = some r.name := by
  obtain ⟨name, hname, h⟩ := Result.bind_eq_ok.1 h
  obtain rfl := Except.ok.inj h
  exact Json.requiredText_eq_ok.1 hname

section Read

variable {config : SystemConfig} {src : Source} {d : Document} {id : String} {v : Json}

/-- The look-ups of a catalog go back to what was read from its document. -/
theorem lookups_of_read (h : read config src d = .ok c) :
    (∀ id, c.material? id =
      (readMaterials config src d).find? fun m => m.enabled && m.id = id) ∧
    (∀ name, c.renderPass? name = (readRenderPasses d).find? fun r => r.name = name) ∧
    StateRegistry.read d.states? = .ok c.states := by
  obtain ⟨states, hstates, rfl, -⟩ := read_eq_ok h
  have hi : Indexed { states, files := d.files } := indexed_empty states d.files
  have hi' : ((readMaterials config src d).foldl addMaterial
      { states, files := d.files }).Indexed := @indexed_foldl _ _ [] hi
  refine ⟨fun id => ?_, fun name => ?_, ?_⟩
  · rw [(foldl_addRenderPass_frame _ _).1, material?_foldl hi]
    rfl
  · rw [renderPass?_foldl hi', (foldl_addMaterial_frame _ _).1]
    rfl
  · rw [(foldl_addRenderPass_frame _ _).2, (foldl_addMaterial_frame _ _).2]
    exact hstates

theorem material?_of_first (h : read config src d = .ok c) {m : Material}
    (hfirst : d.materials.find? (·.textField? "id" = some id) = some v)
    (hv : Material.read (.ofDocument src config.shaderRoot d) v = .ok m)
    (henabled : m.enabled = true) : c.material? id = some m := by
  have hid : m.id = id := by simpa [id_of_read hv] using List.find?_some hfirst
  rw [(lookups_of_read h).1 id]
  refine find?_of_first (fun u n hu hn => ?_) hfirst hv (by simp [henabled, hid])
  have hn : n.enabled = true ∧ n.id = id := by simpa using hn
  rw [id_of_read hu, hn.2]

theorem renderPass?_of_first (h : read config src d = .ok c) {r : RenderPass}
    (hfirst : d.renderPasses.find? (·.textField? "name" = some id) = some v)
    (hv : RenderPass.read v = .ok r) : c.renderPass? id = some r := by
  have hname : r.name = id := by simpa [name_of_read hv] using List.find?_some hfirst
  rw [(lookups_of_read h).2.1 id]
  refine find?_of_first (fun u n hu hn => ?_) hfirst hv (by simp [hname])
  rw [name_of_read hu, of_decide_eq_true hn]

/-- A shader that goes by an id is what the first item of this id in its library declares. -/
theorem shader_of_first {ctx : ReadContext} {material written : String} {stage : Stage}
    {items : List Json} (hitems : ctx.library.value? written = some (.array items))
    (hfirst : items.find? (·.textField? "id" = some id) = some v) :
    ShaderReference.read ctx material stage written (.text id) =
      ShaderReference.ofDeclaration ctx material stage (some id) v := by
  have hdecl : ShaderReference.declaration? ctx stage written id = some v := by
    rw [ShaderReference.declaration?, hitems]
    exact hfirst
  rw [ShaderReference.read, hdecl]

/-- The declarations of state blocks are looked up from the last one on. -/
theorem block_of_last (h : read config src d = .ok c) {category : StateCategory}
    {ds : List StateDeclaration}
    (hlist : StateDeclaration.list (d.states?.getD []) category.key = .ok ds)
    (a : category.Block) :
    (c.states.table category).value? id = some a ↔ StateBlock.Resolves ds.reverse id a := by
  have htable := StateRegistry.read_eq_ok.1 (lookups_of_read h).2.2 category
  rw [StateBlock.readCategory, hlist, Result.ok_bind] at htable
  rw [(StateBlock.resolveAll_eq_ok htable).2.2 id a,
    StateBlock.Resolves.congr (Table.value?_ofPairs ds)]

end Read

/-- Which declaration of an id counts.  The first one of a material that is enabled and can be read,
of a render pass, and of an item in a shader library; but of state blocks the last one. -/
theorem declarations_of_load {config : SystemConfig} {src : Source} {root : String} {d : Document}
    (hd : Document.load src root = .ok d) (hc : load config src root = .ok c) (id : String) :
    (∀ v m, d.materials.find? (·.textField? "id" = some id) = some v →
      Material.read (.ofDocument src config.shaderRoot d) v = .ok m → m.enabled = true →
      c.material? id = some m) ∧
    (∀ v r, d.renderPasses.find? (·.textField? "name" = some id) = some v →
      RenderPass.read v = .ok r → c.renderPass? id = some r) ∧
    (∀ material stage written items v, (d.shaders?.getD []).value? written = some (.array items) →
      items.find? (·.textField? "id" = some id) = some v →
      ShaderReference.read (.ofDocument src config.shaderRoot d) material stage written (.text id) =
        ShaderReference.ofDeclaration (.ofDocument src config.shaderRoot d) material stage
          (some id) v) ∧
    ∀ (category : StateCategory) ds,
      StateDeclaration.list (d.states?.getD []) category.key = .ok ds →
      ∀ a, (c.states.table category).value? id = some a ↔
        StateBlock.Resolves ds.reverse id a := by
  obtain ⟨d', hd', hread⟩ := load_eq_ok.1 hc
  obtain rfl := Except.ok.inj (hd.symm.trans hd')
  refine ⟨fun v m hfirst hv henabled => material?_of_first hread hfirst hv henabled,
    fun v r hfirst hv => renderPass?_of_first hread hfirst hv,
    fun material stage written items v hitems hfirst => ?_,
    fun category ds hlist a => block_of_last hread hlist a⟩
  have hlibrary : (ReadContext.ofDocument src config.shaderRoot d).library.value? written =
      some (.array items) := hitems
  exact shader_of_first hlibrary hfirst

end Catalog

/-! ### A state block that is declared twice -/

namespace RepeatedBlock

def rootText : String :=
  "\x7b\"materials\":[],\"renderPasses\":[],\"states\":\x7b\"rasterizerStates\":[" ++
    "\x7b\"id\":\"r\",\"cullMode\":\"None\"\x7d," ++
    "\x7b\"id\":\"r\",\"cullMode\":\"Front\"\x7d]\x7d\x7d"

def files : Source := (({} : MemorySource).insertText "root.json" rootText).toSource

/-- Whether the first declaration of an id stands for one block by itself, and the catalog has
another. -/
def dropsFirst (d : Document) (c : Catalog) (id : String) (first kept : RasterizerState) : Bool :=
  match StateDeclaration.list (d.states?.getD []) StateCategory.rasterizer.key with
  | .error _ => false
  | .ok ds   =>
    (Table.value? ds id).any (fun json => StateBlock.base? json = none &&
      (StateBlock.override StateBlock.initial json).toOption = some first) &&
    c.states.rasterizer.value? id = some kept

set_option maxRecDepth 100000 in
theorem load_dropsFirst :
    (match Document.load files "root.json", Catalog.load {} files "root.json" with
    | .ok d, .ok c => dropsFirst d c "r" { cullMode := .none } { cullMode := .front }
    | _,     _     => false) = true := by
  decide +kernel

theorem exists_dropsFirst : ∃ d c ds, Document.load files "root.json" = .ok d ∧
    Catalog.load {} files "root.json" = .ok c ∧
    StateDeclaration.list (d.states?.getD []) StateCategory.rasterizer.key = .ok ds ∧
    StateBlock.Resolves ds "r" ({ cullMode := .none } : RasterizerState) ∧
    c.states.rasterizer.value? "r" = some { cullMode := .front } := by
  have h := load_dropsFirst
  split at h
  · next d c hd hc =>
      unfold dropsFirst at h
      split at h
      · cases h
      · next ds hlist =>
          simp only [Bool.and_eq_true, decide_eq_true_eq, Option.any_eq_true] at h
          obtain ⟨⟨json, hv, hb, ho⟩, hkept⟩ := h
          refine ⟨d, c, ds, hd, hc, hlist, ?_, hkept⟩
          exact (StateBlock.resolves_iff hv).2
            ⟨StateBlock.initial, (StateBlock.Under.of_root hb).2 rfl, Result.toOption_eq_some.1 ho⟩
  · cases h

/-- Not every id of a state block stands for what its first declaration says. -/
theorem first_block_dropped : ¬ ∀ (config : SystemConfig) src root d c,
    config.duplicateIds = .warn → Document.load src root = .ok d →
    Catalog.load config src root = .ok c → ∀ (category : StateCategory) ds,
    StateDeclaration.list (d.states?.getD []) category.key = .ok ds →
    ∀ id a, StateBlock.Resolves ds id a → (c.states.table category).value? id = some a := by
  intro hall
  obtain ⟨d, c, ds, hd, hc, hlist, hfirst, hkept⟩ := exists_dropsFirst
  have h := hall {} files "root.json" d c rfl hd hc .rasterizer ds hlist "r" _ hfirst
  cases hkept.symm.trans h

/-- The block of the last declaration is the one that counts. -/
theorem last_block_kept : ∃ d c ds, Document.load files "root.json" = .ok d ∧
    Catalog.load {} files "root.json" = .ok c ∧
    StateDeclaration.list (d.states?.getD []) StateCategory.rasterizer.key = .ok ds ∧
    StateBlock.Resolves ds.reverse "r" ({ cullMode := .front } : RasterizerState) := by
  obtain ⟨d, c, ds, hd, hc, hlist, -, hkept⟩ := exists_dropsFirst
  refine ⟨d, c, ds, hd, hc, hlist, ?_⟩
  exact ((Catalog.declarations_of_load hd hc "r").2.2.2 .rasterizer ds hlist _).1 hkept

end RepeatedBlock

end RenderMaterials
