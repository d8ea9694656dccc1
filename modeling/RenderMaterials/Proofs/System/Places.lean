import RenderMaterials.Proofs.System.Declarations
import RenderMaterials.Proofs.System.Handles

/-!
# Catalogs that were loaded — places

A catalog has two lists, an index of each, and for each shader file the materials that use it.  All
of them are filled as entries are added one by one, and disabled materials and taken names are
passed over in each of them alike.

* `Places`: an index leads from each name of a list to its place, and no name has two places.
* `entriesOf_of_load`: the entries of a document that a catalog has, and their order.
* `Consistent`: the lists and indices of a catalog say the same.
* `consistent_of_load`: every catalog that was loaded is consistent, and handles lead to its
  materials.
* `DeclaredTwice.one_place`: the catalog of a document that declares a material twice.
-/

namespace RenderMaterials

namespace Catalog

variable {c : Catalog} {m : Material} {config : SystemConfig} {src : Source} {root : String}

/-! ### Lists and their indices -/

/-- An index leads from each name in a list to the place of its entry, and no name has two. -/
structure Places {α : Type} (name : α → String) (t : Table String Nat) (as : List α) : Prop where
  nodup : (as.map name).Nodup
  leads : ∀ k i, t.value? k = some i ↔ ∃ a, as[i]? = some a ∧ name a = k

theorem Indexed.materialPlaces (h : c.Indexed) :
    Places (·.id) c.materialIndex c.materials := by
  refine ⟨h.nodup, ?_⟩
  intro id i
  rw [h.value?_eq_some, ids, List.getElem?_map, Option.map_eq_some_iff]

theorem Indexed.renderPassPlaces (h : c.Indexed) (hnodup : (c.renderPasses.map (·.name)).Nodup) :
    Places (·.name) c.renderPassIndex c.renderPasses := by
  refine ⟨hnodup, ?_⟩
  intro name i
  rw [index_iff h.renderPass h.knownPass hnodup, List.getElem?_map, Option.map_eq_some_iff]

/-! ### Entries of a document -/

/-- The names of the render passes in the order of loading. -/
def names (c : Catalog) : List String := c.renderPasses.map (·.name)

/-- The names that a document loads: those of its render passes that can be read, each at the place
of the first one that has it. -/
def loadedNames (d : Document) : List String := ((readRenderPasses d).map (·.name)).eraseDups

theorem names_addRenderPass (h : c.Indexed) {ks : List String} (hks : c.names = ks.eraseDups)
    (r : RenderPass) : (c.addRenderPass r).names = (ks ++ [r.name]).eraseDups := by
  rw [← names_append (index_has_iff h.renderPass h.knownPass) hks r, names, addRenderPass]
  split <;> rfl

theorem names_foldl_addRenderPass (h : c.Indexed) {ks : List String}
    (hks : c.names = ks.eraseDups) (rs : List RenderPass) :
    (rs.foldl addRenderPass c).names = (ks ++ rs.map (·.name)).eraseDups := by
  induction rs generalizing c ks with
  | nil => simpa using hks
  | cons r rs ih =>
      rw [List.foldl_cons, ih (h.addRenderPass r) (names_addRenderPass h hks r),
        List.append_assoc]
      rfl

theorem names_foldl_addMaterial (c : Catalog) (ms : List Material) :
    (ms.foldl addMaterial c).names = c.names := by
  induction ms generalizing c with
  | nil => rfl
  | cons m ms ih =>
      rw [List.foldl_cons, ih, addMaterial]
      split <;> rfl

/-- The entries of a catalog are those of a document that can be read, of materials those that are
enabled: each id and each name once, in the order of the document, with the first entry of it. -/
structure EntriesOf (c : Catalog) (config : SystemConfig) (src : Source) (d : Document) : Prop where
  ids          : c.ids = loadedIds config src d
  names        : c.names = loadedNames d
  materials    : ∀ id, c.material? id =
    (readMaterials config src d).find? fun m => m.enabled && m.id = id
  renderPasses : ∀ name, c.renderPass? name = (readRenderPasses d).find? (·.name = name)

theorem entriesOf_of_load (h : load config src root = .ok c) :
    ∃ d, Document.load src root = .ok d ∧ c.EntriesOf config src d := by
  obtain ⟨d, hd, hread⟩ := load_eq_ok.1 h
  obtain ⟨d', hd', hids⟩ := ids_of_load h
  obtain rfl := Except.ok.inj (hd.symm.trans hd')
  obtain ⟨hmaterials, hrenderPasses, -⟩ := lookups_of_read hread
  refine ⟨d, hd, hids, ?_, hmaterials, hrenderPasses⟩
  obtain ⟨states, -, rfl, -⟩ := read_eq_ok hread
  have hi : ((readMaterials config src d).foldl addMaterial { states, files := d.files }).Indexed :=
    @indexed_foldl _ _ [] (indexed_empty states d.files)
  have hnone : ((readMaterials config src d).foldl addMaterial
      { states, files := d.files }).names = List.eraseDups [] := names_foldl_addMaterial _ _
  exact names_foldl_addRenderPass hi hnone _

theorem EntriesOf.nodup_names {d : Document} (h : c.EntriesOf config src d) : c.names.Nodup := by
  rw [h.names, loadedNames]
  exact Table.nodup_eraseDups _

theorem EntriesOf.enabled {d : Document} (h : c.EntriesOf config src d) (hi : c.Indexed)
    (hm : m ∈ c.materials) : m.enabled = true := by
  have hfound := h.materials m.id
  rw [hi.material?_of_mem hm] at hfound
  have hfirst := List.find?_some hfound.symm
  simp only [Bool.and_eq_true] at hfirst
  exact hfirst.1

/-! ### Files that are listed -/

/-- Every file that is listed has a user. -/
def Used (c : Catalog) : Prop := ∀ file, c.shaderUsers.value? file ≠ some []

theorem used_empty (states : StateRegistry) (files : List String) : Used { states, files } := by
  intro file hfile
  cases hfile

theorem used_addUser {users : Table String (List String)} (id file : String)
    (h : ∀ f, users.value? f ≠ some []) (f : String) :
    (addUser id users file).value? f ≠ some [] := by
  intro hf
  rw [addUser] at hf
  split at hf
  · exact h f hf
  · rw [Table.value?_assign] at hf
    split at hf
    · simp at hf
    · exact h f hf

theorem Used.addMaterial (h : c.Used) (m : Material) : (c.addMaterial m).Used := by
  rw [Catalog.addMaterial]
  split
  · exact h
  · exact List.foldlRecOn (motive := fun t : Table String (List String) => ∀ f, t.value? f ≠ some [])
      _ (addUser m.id) h fun _ ht file _ => used_addUser m.id file ht

theorem Used.addRenderPass (h : c.Used) (r : RenderPass) : (c.addRenderPass r).Used := by
  rw [Catalog.addRenderPass]
  split
  · exact h
  · exact h

theorem used_of_load (h : load config src root = .ok c) : c.Used := by
  obtain ⟨d, -, hd⟩ := load_eq_ok.1 h
  obtain ⟨states, -, rfl, -⟩ := read_eq_ok hd
  exact foldl_induction (used_empty states d.files) (fun _ m hc => hc.addMaterial m)
    (fun _ r hc => hc.addRenderPass r) _ _

/-! ### Catalogs and handles -/

/-- The lists and indices of a catalog say the same.  The users of a file are listed in the order of
loading, none of them twice, and a file without users is not listed. -/
structure Consistent (c : Catalog) : Prop where
  materials    : Places (·.id) c.materialIndex c.materials
  renderPasses : Places (·.name) c.renderPassIndex c.renderPasses
  enabled      : ∀ m ∈ c.materials, m.enabled = true
  users        : ∀ file, (c.shaderUsers.value? file).getD [] =
    (c.materials.filter (·.Names file)).map (·.id)
  nodupUsers   : ∀ file, ((c.shaderUsers.value? file).getD []).Nodup
  files        : ∀ file, c.shaderUsers.has file = true ↔ ∃ m ∈ c.materials, m.Names file

theorem EntriesOf.consistent {d : Document} (h : c.EntriesOf config src d) (hi : c.Indexed)
    (hl : c.Listed) (hu : c.Used) : c.Consistent := by
  refine ⟨hi.materialPlaces, hi.renderPassPlaces h.nodup_names, ?_, hl, ?_, ?_⟩
  · intro m hm
    exact h.enabled hi hm
  · intro file
    rw [hl file]
    exact hi.nodup_usersOf file
  · intro file
    have husers : (∃ m ∈ c.materials, m.Names file) ↔ (c.shaderUsers.value? file).getD [] ≠ [] := by
      rw [hl file, usersOf]
      simp
    rw [husers]
    cases hv : c.shaderUsers.value? file with
    | none => simp [Table.has, hv]
    | some ids =>
        have hne : ids ≠ [] := fun e => hu file (e ▸ hv)
        simp [Table.has, hv, hne]

end Catalog

namespace MaterialSystem

/-- The handle of an id is invalid when the id was not loaded, or stands at the one place that the
invalid handle takes for itself. -/
theorem handle_eq_invalid_iff {σ : Type} {s : MaterialSystem σ} (hi : s.catalog.Indexed)
    (id : String) : s.handle id = .invalid ↔
      id ∉ s.catalog.ids ∨ s.catalog.ids[MaterialHandle.invalid.index]? = some id := by
  by_cases hid : id ∈ s.catalog.ids
  · obtain ⟨i, hplace⟩ := List.mem_iff_getElem?.1 hid
    have hindex : (⟨i⟩ : MaterialHandle) = .invalid ↔ i = MaterialHandle.invalid.index :=
      ⟨congrArg MaterialHandle.index, congrArg MaterialHandle.mk⟩
    rw [handle_of_place hi hplace, ← hi.value?_eq_some, hi.value?_eq_some.2 hplace, hindex]
    simp [hid]
  · simp [handle_of_not_loaded hi hid, hid]

/-- As long as there are fewer materials than handles, only ids that were not loaded have the
invalid one. -/
theorem handle_eq_invalid_iff_not_mem {σ : Type} {s : MaterialSystem σ} (hi : s.catalog.Indexed)
    (hfew : s.catalog.materials.length ≤ MaterialHandle.invalid.index) (id : String) :
    s.handle id = .invalid ↔ id ∉ s.catalog.ids := by
  have hpast : s.catalog.ids[MaterialHandle.invalid.index]? = none := by
    rw [List.getElem?_eq_none_iff, Catalog.ids, List.length_map]
    exact hfew
  rw [handle_eq_invalid_iff hi id, hpast]
  simp

end MaterialSystem

/-- Every catalog that was loaded has the entries of its document and is consistent.  In each system
that has it the handle of a material leads to this material, and the handle of an id is invalid
exactly when the id was not loaded.  For this the index in the invalid handle has to be past all
materials; otherwise the one material at this very place has the invalid handle too. -/
theorem Catalog.consistent_of_load {c : Catalog} {config : SystemConfig} {src : Source}
    {root : String} (h : Catalog.load config src root = .ok c) :
    (∃ d, Document.load src root = .ok d ∧ c.EntriesOf config src d) ∧ c.Consistent ∧
    ∀ (σ : Type) (s : MaterialSystem σ), s.catalog = c →
      (∀ m ∈ c.materials, s.material? (s.handle m.id) = some m) ∧
      (c.materials.length ≤ MaterialHandle.invalid.index →
        ∀ id, s.handle id = .invalid ↔ ∀ m ∈ c.materials, m.id ≠ id) ∧
      ∀ id, s.handle id = .invalid ↔ (∀ m ∈ c.materials, m.id ≠ id) ∨
        ∃ m, c.materials[MaterialHandle.invalid.index]? = some m ∧ m.id = id := by
  have hi := indexed_of_load h
  obtain ⟨d, hd, hentries⟩ := entriesOf_of_load h
  refine ⟨⟨d, hd, hentries⟩, hentries.consistent hi (listed_of_load h) (used_of_load h), ?_⟩
  rintro σ s rfl
  have hids : ∀ id, id ∉ s.catalog.ids ↔ ∀ m ∈ s.catalog.materials, m.id ≠ id := by
    intro id
    simp [ids]
  refine ⟨?_, ?_, ?_⟩
  · intro m hm
    exact MaterialSystem.materialOfId?_of_mem hi hm
  · intro hfew id
    rw [MaterialSystem.handle_eq_invalid_iff_not_mem hi hfew, hids]
  · intro id
    rw [MaterialSystem.handle_eq_invalid_iff hi, hids, ids, List.getElem?_map,
      Option.map_eq_some_iff]

/-! ### A material that is declared twice -/

namespace DeclaredTwice

/-- The second declaration of the material names no file, and another material is disabled. -/
def rootText : String :=
  "\x7b\"materials\":[" ++
    "\x7b\"id\":\"m\",\"shaders\":\x7b\"vertex\":\x7b\"file\":\"f\",\"profile\":\"vs_6_0\"\x7d\x7d\x7d," ++
    "\x7b\"id\":\"m\",\"shaders\":\x7b\x7d\x7d,\x7b\"id\":\"n\",\"enabled\":false,\"shaders\":\x7b\x7d\x7d]\x7d"

def files : Source :=
  ((({} : MemorySource).insertText "a" rootText).insertText "f" "").toSource

def config : SystemConfig := { validate := false }

set_option maxRecDepth 100000 in
theorem parts_of_files : (Catalog.load config files "a").toOption.map
    (fun c => (c.ids, c.shaderUsers)) = some (["m"], [("f", ["m"])]) := by
  decide +kernel

/-- The one material has its handle and its file, and the disabled one has the invalid handle. -/
theorem one_place : ∃ c d, Catalog.load config files "a" = .ok c ∧
    Document.load files "a" = .ok d ∧ c.EntriesOf config files d ∧ c.Consistent ∧
    c.shaderUsers = [("f", ["m"])] ∧ ∀ (σ : Type) (s : MaterialSystem σ), s.catalog = c →
      (∀ m ∈ c.materials, s.material? (s.handle m.id) = some m) ∧
      s.handle "m" ≠ .invalid ∧ s.handle "n" = .invalid := by
  obtain ⟨c, hload, hparts⟩ := Option.map_eq_some_iff.1 parts_of_files
  have hids : c.ids = ["m"] := congrArg Prod.fst hparts
  have husers : c.shaderUsers = [("f", ["m"])] := congrArg Prod.snd hparts
  have hmem : ∀ id, (∀ m ∈ c.materials, m.id ≠ id) ↔ id ∉ c.ids := by
    intro id
    simp [Catalog.ids]
  have hfew : c.materials.length ≤ MaterialHandle.invalid.index := by
    have hlength := congrArg List.length hids
    rw [Catalog.ids, List.length_map] at hlength
    rw [hlength]
    decide
  obtain ⟨⟨d, hd, hentries⟩, hconsistent, hsystems⟩ :=
    Catalog.consistent_of_load (Result.toOption_eq_some.1 hload)
  refine ⟨c, d, Result.toOption_eq_some.1 hload, hd, hentries, hconsistent, husers, ?_⟩
  intro σ s hs
  obtain ⟨hmaterials, hinvalid, -⟩ := hsystems σ s hs
  refine ⟨hmaterials, ?_, ?_⟩
  · rw [Ne, hinvalid hfew, hmem, hids]
    simp
  · rw [hinvalid hfew, hmem, hids]
    simp

end DeclaredTwice

end RenderMaterials
