import RenderMaterials.System.Catalog
import RenderMaterials.Proofs.Result
import Mathlib.Data.List.Nodup

/-!
# Catalogs that were loaded

The indices of a catalog and its lists say the same.  A catalog is `Indexed` when a name leads to
the entry of that name and every entry is known by its name, no two materials have one id, and a
shader file leads to the materials that have a shader in it.

* `Indexed.addMaterial`, `Indexed.addRenderPass`: each entry that is added keeps this.
* `read_eq`: a load in its steps, each of which may end it with the errors that it found.
* `indexed_of_load`: every catalog that was loaded is indexed.
* `read_of_load`: its materials were read from the document's.
-/

namespace RenderMaterials

namespace Catalog

variable {c : Catalog} {m : Material} {r : RenderPass}

/-- The indices of a catalog lead to its entries. -/
structure Indexed (c : Catalog) : Prop where
  material   : ∀ id i, c.materialIndex.value? id = some i →
    ∃ m, c.materials[i]? = some m ∧ m.id = id
  known      : ∀ m ∈ c.materials, c.materialIndex.has m.id = true
  nodup      : (c.materials.map (·.id)).Nodup
  renderPass : ∀ name i, c.renderPassIndex.value? name = some i →
    ∃ r, c.renderPasses[i]? = some r ∧ r.name = name
  knownPass  : ∀ r ∈ c.renderPasses, c.renderPassIndex.has r.name = true
  users      : ∀ file id, id ∈ (c.shaderUsers.value? file).getD [] ↔
    ∃ m ∈ c.materials, m.id = id ∧ ∃ s ∈ m.shaders, s.file = file

theorem indexed_empty (states : StateRegistry) (files : List String) :
    Indexed { states, files } := by
  refine ⟨fun id i h => ?_, fun m hm => ?_, List.nodup_nil, fun name i h => ?_, fun r hr => ?_,
    fun file id => ?_⟩
  · simp at h
  · simp at hm
  · simp at h
  · simp at hr
  · simp

/-! ### Users of a file -/

theorem mem_addUser {id id' : String} {users : Table String (List String)} {file file' : String} :
    id' ∈ ((addUser id users file).value? file').getD [] ↔
      id' ∈ (users.value? file').getD [] ∨ file = file' ∧ id' = id := by
  unfold addUser
  dsimp only
  split
  · next h =>
      have hmem : id ∈ (users.value? file).getD [] := List.contains_iff_mem.1 h
      constructor
      · exact .inl
      · rintro (h | ⟨rfl, rfl⟩)
        · exact h
        · exact hmem
  · rw [Table.value?_assign]
    by_cases h : file = file'
    · subst h
      simp
    · simp [h]

theorem mem_foldl_addUser {id id' : String} {files : List String}
    {users : Table String (List String)} {file : String} :
    id' ∈ ((files.foldl (addUser id) users).value? file).getD [] ↔
      id' ∈ (users.value? file).getD [] ∨ file ∈ files ∧ id' = id := by
  induction files generalizing users with
  | nil => simp
  | cons f files ih =>
      rw [List.foldl_cons, ih, mem_addUser, List.mem_cons]
      constructor
      · rintro ((h | ⟨rfl, rfl⟩) | ⟨h, rfl⟩)
        · exact .inl h
        · exact .inr ⟨.inl rfl, rfl⟩
        · exact .inr ⟨.inr h, rfl⟩
      · rintro (h | ⟨rfl | h, rfl⟩)
        · exact .inl (.inl h)
        · exact .inl (.inr ⟨rfl, rfl⟩)
        · exact .inr ⟨h, rfl⟩

/-! ### Adding entries -/

/-- An index that leads to the entries of a list leads to them when one is added at the end. -/
theorem index_append {α : Type} {name : α → String} {t : Table String Nat} {as : List α} (a : α)
    (h : ∀ k i, t.value? k = some i → ∃ b, as[i]? = some b ∧ name b = k) (k : String) (i : Nat)
    (hk : (t.assign (name a) as.length).value? k = some i) :
    ∃ b, (as ++ [a])[i]? = some b ∧ name b = k := by
  rw [Table.value?_assign] at hk
  split at hk
  · next e =>
      obtain rfl := Option.some.inj hk
      exact ⟨a, by simp, e⟩
  · obtain ⟨b, hb, e⟩ := h k i hk
    refine ⟨b, ?_, e⟩
    rw [List.getElem?_append_left (List.getElem?_eq_some_iff.1 hb).1]
    exact hb

/-- An index that leads to entries of a list and knows all of them leads from each name to its
place, and to no other one, when no name has two places. -/
theorem index_iff {α : Type} {name : α → String} {t : Table String Nat} {as : List α}
    (hlead : ∀ k i, t.value? k = some i → ∃ a, as[i]? = some a ∧ name a = k)
    (hknown : ∀ a ∈ as, t.has (name a) = true) (hnodup : (as.map name).Nodup) {k : String}
    {i : Nat} : t.value? k = some i ↔ (as.map name)[i]? = some k := by
  have hplace : ∀ j, t.value? k = some j → (as.map name)[j]? = some k := by
    intro j hj
    obtain ⟨a, ha, rfl⟩ := hlead k j hj
    rw [List.getElem?_map, ha]
    rfl
  refine ⟨hplace i, fun hi => ?_⟩
  obtain ⟨a, ha, rfl⟩ := List.mem_map.1 (List.mem_of_getElem? hi)
  obtain ⟨j, hj⟩ := Table.has_iff.1 (hknown a ha)
  -- no name has two places
  obtain ⟨hlt, hi'⟩ := List.getElem?_eq_some_iff.1 hi
  obtain ⟨hlt', hj'⟩ := List.getElem?_eq_some_iff.1 (hplace j hj)
  rw [hj, (List.Nodup.getElem_inj_iff hnodup).1 (hj'.trans hi'.symm)]

/-- Such an index knows the names of the list, and no others. -/
theorem index_has_iff {α : Type} {name : α → String} {t : Table String Nat} {as : List α}
    (hlead : ∀ k i, t.value? k = some i → ∃ a, as[i]? = some a ∧ name a = k)
    (hknown : ∀ a ∈ as, t.has (name a) = true) {k : String} :
    t.has k = true ↔ k ∈ as.map name := by
  constructor
  · intro hk
    obtain ⟨i, hi⟩ := Table.has_iff.1 hk
    obtain ⟨a, ha, rfl⟩ := hlead k i hi
    exact List.mem_map_of_mem (List.mem_of_getElem? ha)
  · intro hk
    obtain ⟨a, ha, rfl⟩ := List.mem_map.1 hk
    exact hknown a ha

/-- An entry is added at the end, unless its name is known: so each name stays at the place of the
first entry that has it. -/
theorem names_append {α : Type} {name : α → String} {t : Table String Nat} {as : List α}
    {ks : List String} (hhas : ∀ {k}, t.has k = true ↔ k ∈ as.map name)
    (hks : as.map name = ks.eraseDups) (a : α) :
    (if t.has (name a) then as else as ++ [a]).map name = (ks ++ [name a]).eraseDups := by
  have hmem : t.has (name a) = true ↔ name a ∈ ks := by
    rw [hhas, hks, List.mem_eraseDups]
  rw [Table.eraseDups_concat]
  by_cases ha : name a ∈ ks
  · rw [if_pos (hmem.2 ha), if_pos ha, hks]
  · rw [if_neg (mt hmem.1 ha), if_neg ha, List.map_append, hks]
    rfl

theorem Indexed.addMaterial (h : c.Indexed) (m : Material) : (c.addMaterial m).Indexed := by
  unfold Catalog.addMaterial
  split
  · exact h
  · next hnew =>
      have hid : c.materialIndex.has m.id = false := by
        simp only [Bool.or_eq_true, not_or, Bool.not_eq_true] at hnew
        exact hnew.2
      have hmem : ∀ {n}, n ∈ c.materials ++ [m] → n ∈ c.materials ∨ n = m := fun hn => by
        simpa using hn
      refine ⟨fun id i hi => index_append m h.material id i hi, fun n hn => ?_, ?_, h.renderPass,
        h.knownPass, fun file id => ?_⟩
      · -- the id of each material is known
        rcases hmem hn with hn | rfl
        · rw [Table.has_assign, h.known n hn, Bool.or_true]
        · rw [Table.has_assign, decide_eq_true rfl, Bool.true_or]
      · -- the id of the new one was not
        rw [List.map_append]
        refine List.Nodup.append h.nodup (List.nodup_singleton m.id) fun id hi hm => ?_
        obtain ⟨n, hn, rfl⟩ := List.mem_map.1 hi
        have he : n.id = m.id := by simpa using hm
        rw [← he, h.known n hn] at hid
        cases hid
      · rw [mem_foldl_addUser, h.users file id]
        constructor
        · rintro (⟨n, hn, hs⟩ | ⟨hf, rfl⟩)
          · exact ⟨n, List.mem_append_left [m] hn, hs⟩
          · exact ⟨m, by simp, rfl, List.mem_map.1 hf⟩
        · rintro ⟨n, hn, rfl, hs⟩
          rcases hmem hn with hn | rfl
          · exact .inl ⟨n, hn, rfl, hs⟩
          · exact .inr ⟨List.mem_map.2 hs, rfl⟩

theorem Indexed.addRenderPass (h : c.Indexed) (r : RenderPass) : (c.addRenderPass r).Indexed := by
  unfold Catalog.addRenderPass
  split
  · exact h
  · refine ⟨h.material, h.known, h.nodup, fun name i hi => index_append r h.renderPass name i hi,
      fun r' hr' => ?_, h.users⟩
    rcases List.mem_append.1 hr' with hr' | hr'
    · rw [Table.has_assign, h.knownPass r' hr', Bool.or_true]
    · obtain rfl := List.mem_singleton.1 hr'
      rw [Table.has_assign, decide_eq_true rfl, Bool.true_or]

theorem mem_addMaterial {n : Material} (hn : n ∈ (c.addMaterial m).materials) :
    n ∈ c.materials ∨ n = m := by
  unfold addMaterial at hn
  split at hn
  · exact .inl hn
  · simpa using hn

/-! ### What was loaded -/

theorem Indexed.renderPass_name (h : c.Indexed) {name : String} (hr : c.renderPass? name = some r) :
    r.name = name := by
  obtain ⟨i, hi, hr⟩ := Option.bind_eq_some_iff.1 hr
  obtain ⟨r', hr', e⟩ := h.renderPass name i hi
  obtain rfl := Option.some.inj (hr.symm.trans hr')
  exact e

theorem Indexed.exists_material (h : c.Indexed) {id : String}
    (hid : c.materialIndex.has id = true) : ∃ m ∈ c.materials, c.material? id = some m := by
  obtain ⟨i, hi⟩ := Table.has_iff.1 hid
  obtain ⟨m, hm, -⟩ := h.material id i hi
  exact ⟨m, List.mem_of_getElem? hm, by rw [material?, hi]; exact hm⟩

/-- Each material is found by its id. -/
theorem Indexed.material?_of_mem (h : c.Indexed) (hm : m ∈ c.materials) :
    c.material? m.id = some m := by
  obtain ⟨i, hi⟩ := Table.has_iff.1 (h.known m hm)
  obtain ⟨n, hn, hid⟩ := h.material m.id i hi
  obtain rfl : n = m := List.inj_on_of_nodup_map h.nodup (List.mem_of_getElem? hn) hm hid
  rw [material?, hi]
  exact hn

theorem Indexed.exists_renderPass (h : c.Indexed) {name : String}
    (hname : c.renderPassIndex.has name = true) :
    ∃ r ∈ c.renderPasses, c.renderPass? name = some r := by
  obtain ⟨i, hi⟩ := Table.has_iff.1 hname
  obtain ⟨r, hr, -⟩ := h.renderPass name i hi
  exact ⟨r, List.mem_of_getElem? hr, by rw [renderPass?, hi]; exact hr⟩

/-- What each entry that is added keeps holds when all of them were added. -/
theorem foldl_induction {P : Catalog → Prop} (h : P c) (hm : ∀ c m, P c → P (addMaterial c m))
    (hr : ∀ c r, P c → P (addRenderPass c r)) (ms : List Material) (rs : List RenderPass) :
    P (rs.foldl addRenderPass (ms.foldl addMaterial c)) :=
  List.foldlRecOn rs addRenderPass
    (List.foldlRecOn ms addMaterial h fun c hc m _ => hm c m hc) fun c hc r _ => hr c r hc

theorem indexed_foldl {ms : List Material} {rs : List RenderPass} (h : c.Indexed) :
    (rs.foldl addRenderPass (ms.foldl addMaterial c)).Indexed :=
  foldl_induction h (fun _ m hc => hc.addMaterial m) (fun _ r hc => hc.addRenderPass r) ms rs

theorem materials_foldl_addRenderPass (c : Catalog) (rs : List RenderPass) :
    (rs.foldl addRenderPass c).materials = c.materials := by
  induction rs generalizing c with
  | nil => rfl
  | cons r rs ih =>
      rw [List.foldl_cons, ih, addRenderPass]
      split <;> rfl

theorem mem_foldl {ms : List Material} {rs : List RenderPass}
    (hm : m ∈ (rs.foldl addRenderPass (ms.foldl addMaterial c)).materials) :
    m ∈ c.materials ∨ m ∈ ms := by
  rw [materials_foldl_addRenderPass] at hm
  induction ms generalizing c with
  | nil => exact .inl hm
  | cons n ms ih =>
      rcases ih hm with hc | hms
      · rcases mem_addMaterial hc with hc | rfl
        · exact .inl hc
        · exact .inr (by simp)
      · exact .inr (by simp [hms])

/-- The materials of a document that can be read. -/
def readMaterials (config : SystemConfig) (src : Source) (d : Document) : List Material :=
  (d.materials.map (Material.read (.ofDocument src config.shaderRoot d))).filterMap
    Except.toOption

/-- The render passes of a document that can be read. -/
def readRenderPasses (d : Document) : List RenderPass :=
  (d.renderPasses.map RenderPass.read).filterMap Except.toOption

section Steps

variable {config : SystemConfig} {src : Source} {d : Document}

/-- What the entries of a document make of its state blocks. -/
def gather (config : SystemConfig) (src : Source) (d : Document) (states : StateRegistry) :
    Catalog :=
  (readRenderPasses d).foldl addRenderPass
    ((readMaterials config src d).foldl addMaterial { states, files := d.files })

/-- The errors of the entries, and of the names in those that were read. -/
def entryFaults (config : SystemConfig) (src : Source) (d : Document) (states : StateRegistry) :
    List MaterialError :=
  (d.materials.map (Material.read (.ofDocument src config.shaderRoot d))).filterMap
      Document.errorOf ++
    (d.renderPasses.map RenderPass.read).filterMap Document.errorOf ++
    (gather config src d states).unresolved

/-- The last step: the catalog, unless an error in its entries ends the load. -/
def finish (config : SystemConfig) (src : Source) (d : Document) (states : StateRegistry) :
    Except LoadFailure Catalog :=
  let ending := (entryFaults config src d states).filter config.endsLoad
  if ending = [] then .ok (gather config src d states) else .error ⟨ending⟩

/-- A load in its steps: the checks, the state blocks and the entries, one after the other. -/
theorem read_eq (config : SystemConfig) (src : Source) (d : Document) : read config src d =
    if config.checkErrors d = [] then
      (StateRegistry.read d.states?).mapError .single >>= finish config src d
    else .error ⟨config.checkErrors d⟩ := by
  have hfinish : finish config src d = fun states =>
      if (entryFaults config src d states).any config.endsLoad then
        .error ⟨(entryFaults config src d states).filter config.endsLoad⟩
      else .ok (gather config src d states) := by
    funext states
    unfold finish
    dsimp only
    by_cases h : (entryFaults config src d states).filter config.endsLoad = []
    · rw [if_pos h, if_neg]
      rw [List.filter_eq_nil_iff] at h
      simpa using h
    · rw [if_neg h, if_pos]
      rw [List.filter_eq_nil_iff] at h
      simpa using h
  rw [hfinish]
  unfold read
  by_cases h : config.checkErrors d = []
  · rw [if_pos h, h]
    rfl
  · rw [if_neg h]
    simp only [ne_eq, h, not_false_eq_true, if_true]
    rfl

theorem checkErrors_of_read (h : read config src d = .ok c) : config.checkErrors d = [] := by
  rw [read_eq] at h
  split at h
  · next hchecks => exact hchecks
  · cases h

/-- What a document is read into: its materials and render passes, added one by one.  No name in
them ends the load. -/
theorem read_eq_ok (h : read config src d = .ok c) :
    ∃ states, StateRegistry.read d.states? = .ok states ∧
      c = (readRenderPasses d).foldl addRenderPass
        ((readMaterials config src d).foldl addMaterial { states, files := d.files }) ∧
      ∀ e ∈ c.unresolved, config.endsLoad e = false := by
  have hchecks := checkErrors_of_read h
  rw [read_eq, if_pos hchecks] at h
  obtain ⟨states, hstates, h⟩ := Result.bind_eq_ok.1 h
  unfold finish at h
  dsimp only at h
  split at h
  · next hnone =>
      obtain rfl := Except.ok.inj h
      refine ⟨states, Result.mapError_eq_ok.1 hstates, rfl, fun e he => ?_⟩
      have hnot := List.filter_eq_nil_iff.1 hnone e (List.mem_append_right _ he)
      exact Bool.eq_false_iff.2 hnot
  · cases h

end Steps

theorem load_eq_ok {config : SystemConfig} {src : Source} {root : String} :
    load config src root = .ok c ↔
      ∃ d, Document.load src root = .ok d ∧ read config src d = .ok c := by
  rw [load, Result.bind_eq_ok]

/-- Every catalog that was loaded is indexed. -/
theorem indexed_of_load {config : SystemConfig} {src : Source} {root : String}
    (h : load config src root = .ok c) : c.Indexed := by
  obtain ⟨d, -, hd⟩ := load_eq_ok.1 h
  obtain ⟨states, -, rfl, -⟩ := read_eq_ok hd
  exact indexed_foldl (indexed_empty states d.files)

/-- The materials of a catalog were read from values of the document. -/
theorem read_of_load {config : SystemConfig} {src : Source} {root : String}
    (h : load config src root = .ok c) (hm : m ∈ c.materials) :
    ∃ ctx v, Material.read ctx v = .ok m := by
  obtain ⟨d, -, hd⟩ := load_eq_ok.1 h
  obtain ⟨states, -, rfl, -⟩ := read_eq_ok hd
  rcases mem_foldl hm with hm | hm
  · simp at hm
  · obtain ⟨r, hr, e⟩ := List.mem_filterMap.1 hm
    obtain ⟨v, -, rfl⟩ := List.mem_map.1 hr
    exact ⟨_, v, Result.toOption_eq_some.1 e⟩

end Catalog

end RenderMaterials
