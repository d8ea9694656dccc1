import RenderMaterials.Proofs.System.Declarations

/-!
# Catalogs that were loaded — no id twice

Where ids that are declared twice are refused, a document that is loaded declares each of its ids
once, whatever the section, the category and the form.  So it does not matter that the first
material counts and the last state block: every declaration is the one that its id leads to.

* `Document.repeated_eq_nil`: nothing is reported exactly when the ids are distinct.
* `Document.ids`, `Document.Distinct`: what a document declares, and that each id is new.
* `Json.Declares`: what a category declares under an id, in the keyed form or as an array.
* `StateBlock.block_of_distinct`: each declaration of a category gives the block of its id.
* `ShaderReference.libraryItem?_of_declares`: each item of a library is found by its id.
* `Catalog.unshadowed_of_load`: all of it for a document that was loaded.
* `OneIdEach.all_found`: a document with an id in each place.
-/

namespace RenderMaterials

/-! ### Distinct ids -/

namespace Document

/-- Nothing is declared again exactly when the ids are distinct and none was seen before. -/
theorem repeated_eq_nil {seen : List String} {es : List DuplicateId} :
    repeated seen es = [] ↔ (es.map (·.id)).Nodup ∧ ∀ e ∈ es, e.id ∉ seen := by
  -- each id joins those seen before, so the induction is for all of these
  induction es generalizing seen with
  | nil => simp [repeated]
  | cons e es ih =>
      by_cases he : e.id ∈ seen
      · simp [repeated, he]
      · have hcons : repeated seen (e :: es) = repeated (e.id :: seen) es := by
          simp [repeated, he]
        rw [hcons, ih, List.map_cons, List.nodup_cons, List.forall_mem_cons]
        simp only [List.mem_cons, not_or]
        constructor
        · rintro ⟨hnodup, hfresh⟩
          refine ⟨⟨fun hmem => ?_, hnodup⟩, he, fun e' he' => (hfresh e' he').2⟩
          obtain ⟨e', he', heq⟩ := List.mem_map.1 hmem
          exact (hfresh e' he').1 heq
        · rintro ⟨⟨hnew, hnodup⟩, -, hfresh⟩
          refine ⟨hnodup, fun e' he' => ⟨fun heq => hnew ?_, hfresh e' he'⟩⟩
          exact heq ▸ List.mem_map_of_mem he'

variable {d : Document}

/-- The ids that a document declares, section by section: those of its materials, the names of its
render passes, and the ids of each category of states and of each shader library. -/
def ids (d : Document) : List String :=
  d.materials.filterMap (·.textField? "id") ++ d.renderPasses.filterMap (·.textField? "name") ++
    (d.states?.getD []).values.flatMap declaredIds ++
    (d.shaders?.getD []).values.flatMap declaredIds

/-- No id of a document is declared twice. -/
def Distinct (d : Document) : Prop := d.ids.Nodup

theorem ids_declarations (d : Document) : d.declarations.map (·.id) = d.ids := by
  have hsection : ∀ label categories, (sectionIds label categories).map (·.id) =
      (Table.values (categories.getD [])).flatMap declaredIds := fun label categories => by
    simp [sectionIds, Table.values, List.map_flatMap, List.flatMap_map, Function.comp_def]
  simp only [declarations, ids, List.map_append, List.map_filterMap, Option.map_map, hsection]
  simp [Function.comp_def]

/-- The check for repeated ids passes over none of them. -/
theorem distinct_iff : d.Distinct ↔ d.duplicates = [] := by
  rw [duplicates, repeated_eq_nil, ids_declarations, Distinct]
  simp

namespace Distinct

variable (h : d.Distinct)
include h

theorem materials : (d.materials.filterMap (·.textField? "id")).Nodup :=
  (List.nodup_append.1 (List.nodup_append.1 (List.nodup_append.1 h).1).1).1

theorem renderPasses : (d.renderPasses.filterMap (·.textField? "name")).Nodup :=
  (List.nodup_append.1 (List.nodup_append.1 (List.nodup_append.1 h).1).1).2.1

/-- The ids of a category of states. -/
theorem states {v : Json} (hv : v ∈ (d.states?.getD []).values) : (declaredIds v).Nodup :=
  (List.nodup_flatMap.1 (List.nodup_append.1 (List.nodup_append.1 h).1).2.1).1 v hv

/-- The ids of a shader library. -/
theorem shaders {v : Json} (hv : v ∈ (d.shaders?.getD []).values) : (declaredIds v).Nodup :=
  (List.nodup_flatMap.1 (List.nodup_append.1 h).2.1).1 v hv

end Distinct

end Document

/-- With distinct names, each value is the first of its name. -/
theorem Json.find?_of_nodup {vs : List Json} {key name : String}
    (h : (vs.filterMap (·.textField? key)).Nodup) {v : Json} (hv : v ∈ vs)
    (hname : v.textField? key = some name) :
    vs.find? (·.textField? key = some name) = some v := by
  induction vs with
  | nil => cases hv
  | cons u vs ih =>
      rcases List.mem_cons.1 hv with rfl | hmem
      · exact List.find?_cons_of_pos (by simpa using hname)
      · have hother : ¬ u.textField? key = some name := fun hu => by
          have hcons : (u :: vs).filterMap (·.textField? key) =
              name :: vs.filterMap (·.textField? key) := List.filterMap_cons_some hu
          rw [hcons, List.nodup_cons] at h
          exact h.1 (List.mem_filterMap.2 ⟨v, hmem, hname⟩)
        rw [List.find?_cons_of_neg (by simpa using hother)]
        refine ih (h.sublist ?_) hmem
        exact (List.sublist_cons_self u vs).filterMap _

/-! ### Categories -/

/-- A category declares a value under an id: it stands there, or has the id in a field. -/
inductive Json.Declares : Json → String → Json → Prop
  | keyed {es : List (String × Json)} {id : String} {v : Json} (h : (id, v) ∈ es) :
      Declares (.object es) id v
  | item {items : List Json} {id : String} {v : Json} (h : v ∈ items)
      (hid : v.textField? "id" = some id) : Declares (.array items) id v

/-! ### State blocks -/

namespace StateDeclaration

variable {states : JsonObject} {key : String} {ds : List StateDeclaration}

/-- The ids of what is read from a category are those that are declared in it. -/
theorem ids_of_list (h : list states key = .ok ds) :
    ds = [] ∨ ∃ v ∈ states.values, ds.map Prod.fst = Document.declaredIds v := by
  unfold list at h
  split at h
  · cases h
    exact .inl rfl
  · next es hes =>
      refine .inr ⟨_, List.mem_map.2 ⟨_, Table.mem_of_value? hes, rfl⟩, ?_⟩
      refine Result.map_congr ((Result.mapM_eq_ok.1 h).imp fun e d hd => ?_)
      unfold ofEntry at hd
      split at hd
      · cases hd
        rfl
      · cases hd
  · next items hitems =>
      refine .inr ⟨_, List.mem_map.2 ⟨_, Table.mem_of_value? hitems, rfl⟩, ?_⟩
      refine (Result.filterMap_eq_map ((Result.mapM_eq_ok.1 h).imp fun v d hd => ?_)).symm
      unfold ofItem at hd
      split at hd
      · cases hd
      · split at hd
        · next hid =>
            cases hd
            exact hid
        · cases hd
  · cases h

/-- What a category declares is an object, and is read under its id. -/
theorem mem_of_declares (h : list states key = .ok ds) {category v : Json} {id : String}
    (hcategory : states.value? key = some category) (hdeclares : category.Declares id v) :
    ∃ json, v = .object json ∧ (id, json) ∈ ds := by
  unfold list at h
  rw [hcategory] at h
  cases hdeclares with
  | keyed hmem =>
      obtain ⟨⟨id', json⟩, hd, hread⟩ :=
        Result.exists_right_of_mem (Result.mapM_eq_ok.1 h) hmem
      unfold ofEntry at hread
      cases v <;> cases hread
      exact ⟨json, rfl, hd⟩
  | item hmem hid =>
      obtain ⟨⟨id', json⟩, hd, hread⟩ :=
        Result.exists_right_of_mem (Result.mapM_eq_ok.1 h) hmem
      unfold ofItem at hread
      rw [hid] at hread
      cases v <;> cases hread
      exact ⟨json, rfl, hd⟩

end StateDeclaration

namespace StateBlock

variable {α : Type} [StateBlock α] {ds : List StateDeclaration} {t : Table String α}

/-- The block that a declaration is put over, where there are some blocks: that of its base, or the
one that says nothing. -/
def BaseIn (t : Table String α) (json : JsonObject) (b : α) : Prop :=
  match base? json with
  | none      => b = initial
  | some base => t.value? base = some b

theorem baseIn_of_under (h : resolveAll α ds = .ok t) {json : JsonObject} {b : α}
    (hb : Under (Table.ofPairs ds) json b) : BaseIn t json b := by
  obtain ⟨-, -, hvalue⟩ := resolveAll_eq_ok h
  unfold BaseIn
  cases hbase : base? json with
  | none => exact (Under.of_root hbase).1 hb
  | some base => exact (hvalue base b).2 ((Under.of_base hbase).1 hb)

/-- Each of some declarations with distinct ids gives the block of its id. -/
theorem block_of_distinct (h : resolveAll α ds = .ok t) (hids : (ds.map Prod.fst).Nodup)
    {id : String} {json : JsonObject} (hmem : (id, json) ∈ ds) :
    ∃ b a, BaseIn t json b ∧ override b json = .ok a ∧ t.value? id = some a := by
  obtain ⟨-, hhas, hvalue⟩ := resolveAll_eq_ok h
  obtain ⟨a, ha⟩ := Table.has_iff.1 ((hhas id).2 (List.mem_map.2 ⟨_, hmem, rfl⟩))
  have hv : (Table.ofPairs ds).value? id = some json := by
    rw [value?_ofPairs_of_nodup hids]
    exact (Table.value?_eq_some_iff hids).2 hmem
  obtain ⟨b, hunder, hover⟩ := (resolves_iff hv).1 ((hvalue id a).1 ha)
  exact ⟨b, a, baseIn_of_under h hunder, hover, ha⟩

end StateBlock

/-! ### Shader libraries -/

namespace ShaderReference

theorem libraryItem?_of_declares {entries v : Json} {id : String}
    (hids : (Document.declaredIds entries).Nodup) (h : entries.Declares id v) :
    libraryItem? id entries = some v := by
  cases h with
  | keyed h => exact (Table.value?_eq_some_iff hids).2 h
  | item h hid => exact Json.find?_of_nodup hids h hid

end ShaderReference

/-! ### Catalogs -/

namespace Catalog

variable {c : Catalog} {config : SystemConfig} {src : Source} {d : Document}

/-- No declaration of a document is hidden by another.  The ids are distinct in all sections
together, and what can be read is what its id leads to. -/
structure Unshadowed (config : SystemConfig) (src : Source) (d : Document) (c : Catalog) :
    Prop where
  distinct   : d.Distinct
  material   : ∀ v ∈ d.materials, ∀ m,
    Material.read (.ofDocument src config.shaderRoot d) v = .ok m → m.enabled = true →
    c.material? m.id = some m
  renderPass : ∀ v ∈ d.renderPasses, ∀ r, RenderPass.read v = .ok r →
    c.renderPass? r.name = some r
  /-- Each declaration of a category, put over the block of its base, is the block of its id. -/
  block      : ∀ (category : StateCategory) entries,
    (d.states?.getD []).value? category.key = some entries → ∀ id v, entries.Declares id v →
    ∃ json, v = .object json ∧ ∃ b a : category.Block,
      StateBlock.BaseIn (c.states.table category) json b ∧ StateBlock.override b json = .ok a ∧
      (c.states.table category).value? id = some a
  item       : ∀ entries ∈ (d.shaders?.getD []).values, ∀ id v, entries.Declares id v →
    ShaderReference.libraryItem? id entries = some v

/-- Where the checks are made and repeated ids are refused, no id is declared twice. -/
theorem distinct_of_read (h : read config src d = .ok c) (hvalidate : config.validate = true)
    (hreject : config.duplicateIds = .reject) : d.Distinct := by
  have hchecks := checkErrors_of_read h
  rw [SystemConfig.checkErrors, if_pos hvalidate] at hchecks
  dsimp only at hchecks
  rw [if_pos hreject] at hchecks
  exact Document.distinct_iff.2 (List.map_eq_nil_iff.1 (List.append_eq_nil_iff.1 hchecks).2)

theorem unshadowed_of_distinct (h : read config src d = .ok c) (hd : d.Distinct) :
    Unshadowed config src d c where
  distinct := hd
  material v hv m hm henabled :=
    material?_of_first h (Json.find?_of_nodup hd.materials hv (id_of_read hm)) hm henabled
  renderPass v hv r hr :=
    renderPass?_of_first h (Json.find?_of_nodup hd.renderPasses hv (name_of_read hr)) hr
  block category entries hentries id v hdeclares := by
    have htable := StateRegistry.read_eq_ok.1 (lookups_of_read h).2.2 category
    obtain ⟨ds, hlist, hall⟩ := Result.bind_eq_ok.1 htable
    have hids : (ds.map Prod.fst).Nodup := by
      rcases StateDeclaration.ids_of_list hlist with rfl | ⟨v, hv, hids⟩
      · exact List.nodup_nil
      · rw [hids]
        exact hd.states hv
    obtain ⟨json, rfl, hmem⟩ := StateDeclaration.mem_of_declares hlist hentries hdeclares
    exact ⟨json, rfl, StateBlock.block_of_distinct hall hids hmem⟩
  item entries hentries id v hdeclares :=
    ShaderReference.libraryItem?_of_declares (hd.shaders hentries) hdeclares

/-- A document that was loaded with repeated ids refused has no hidden declaration. -/
theorem unshadowed_of_load {root : String} (h : load config src root = .ok c)
    (hvalidate : config.validate = true) (hreject : config.duplicateIds = .reject) :
    ∃ d, Document.load src root = .ok d ∧ Unshadowed config src d c := by
  obtain ⟨d, hd, hread⟩ := load_eq_ok.1 h
  exact ⟨d, hd, unshadowed_of_distinct hread (distinct_of_read hread hvalidate hreject)⟩

end Catalog

/-! ### An id in each place -/

namespace OneIdEach

/-- The second material has no shaders, and is passed over. -/
def rootText : String :=
  "\x7b\"includes\":[\"b\"],\"renderPasses\":[\x7b\"name\":\"p\"\x7d],\"materials\":[" ++
    "\x7b\"id\":\"m\",\"shaders\":\x7b\"vertex\":\"v\"\x7d\x7d,\x7b\"id\":\"n\"\x7d]\x7d"

def blocksText : String :=
  "\x7b\"states\":\x7b\"blendStates\":[\x7b\"id\":\"s\"\x7d]\x7d,\"shaders\":\x7b\"vertex\":[" ++
    "\x7b\"id\":\"v\",\"file\":\"f\",\"profile\":\"vs_6_0\"\x7d]\x7d\x7d"

def files : Source :=
  (((({} : MemorySource).insertText "a" rootText).insertText "b" blocksText).insertText "f"
    "").toSource

def config : SystemConfig := { duplicateIds := .reject, skipInvalid := true }

set_option maxRecDepth 100000 in
theorem load_isOk : (Catalog.load config files "a").isOk = true := by
  decide +kernel

theorem all_found : ∃ c d, Catalog.load config files "a" = .ok c ∧
    Document.load files "a" = .ok d ∧ Catalog.Unshadowed config files d c := by
  obtain ⟨c, hc⟩ := Result.isOk_iff.1 load_isOk
  obtain ⟨d, hd, hall⟩ := Catalog.unshadowed_of_load hc rfl rfl
  exact ⟨c, d, hc, hd, hall⟩

end OneIdEach

end RenderMaterials
