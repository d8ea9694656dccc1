import RenderMaterials.Proofs.System.Reloading

/-!
# Material systems — handles

A handle is a place in the order of loading, and nothing in it says which material it was made for.
It outlives the catalog that it was made from, and then leads to the material at the same place of
the catalog that was loaded last.

* `Catalog.ids_of_load`: the places of a catalog that was loaded.
* `SameLoad`, `sameLoad_answer`: commands that load nothing leave what was loaded.
* `latest`, `catalog_answers`: the catalog after a row of commands.
* `handle_after`: in every run, what a handle leads to after a row of commands.
* `TwoMaterials.other_material`: a handle that leads to another material after a reload.
-/

namespace RenderMaterials

/-! ### Places of materials -/

namespace Catalog

variable {c : Catalog} {id : String} {i : Nat}

/-- The ids of the materials in the order of loading. -/
def ids (c : Catalog) : List String := c.materials.map (·.id)

/-- The ids that a document loads: those of its materials that can be read and are enabled, each at
the place of the first one that has it. -/
def loadedIds (config : SystemConfig) (src : Source) (d : Document) : List String :=
  (((readMaterials config src d).filter (·.enabled)).map (·.id)).eraseDups

theorem Indexed.has_iff (h : c.Indexed) : c.materialIndex.has id = true ↔ id ∈ c.ids :=
  index_has_iff h.material h.known

/-- The index leads from each id to its place, and from no other one. -/
theorem Indexed.value?_eq_some (h : c.Indexed) :
    c.materialIndex.value? id = some i ↔ c.ids[i]? = some id :=
  index_iff h.material h.known h.nodup

theorem ids_addMaterial (h : c.Indexed) {ks : List String} (hks : c.ids = ks.eraseDups)
    (m : Material) : (c.addMaterial m).ids =
      (ks ++ if m.enabled then [m.id] else []).eraseDups := by
  cases hm : m.enabled with
  | false => simpa [addMaterial, hm] using hks
  | true =>
      rw [if_pos rfl, ← names_append h.has_iff hks m, ids, addMaterial, hm]
      cases c.materialIndex.has m.id <;> rfl

theorem ids_foldl_addMaterial (h : c.Indexed) {ks : List String} (hks : c.ids = ks.eraseDups)
    (ms : List Material) : (ms.foldl addMaterial c).ids =
      (ks ++ (ms.filter (·.enabled)).map (·.id)).eraseDups := by
  induction ms generalizing c ks with
  | nil => simpa using hks
  | cons m ms ih =>
      rw [List.foldl_cons, ih (h.addMaterial m) (ids_addMaterial h hks m), List.append_assoc]
      cases hm : m.enabled <;> simp [hm]

/-- The places of a catalog that was loaded. -/
theorem ids_of_load {config : SystemConfig} {src : Source} {root : String}
    (h : load config src root = .ok c) :
    ∃ d, Document.load src root = .ok d ∧ c.ids = loadedIds config src d := by
  obtain ⟨d, hd, hread⟩ := load_eq_ok.1 h
  obtain ⟨states, -, rfl, -⟩ := read_eq_ok hread
  have hempty : ids { states, files := d.files } = List.eraseDups [] := rfl
  refine ⟨d, hd, ?_⟩
  rw [ids, materials_foldl_addRenderPass]
  exact ids_foldl_addMaterial (indexed_empty states d.files) hempty _

end Catalog

namespace MaterialSystem

variable {σ : Type} {tools : Toolchain σ} {s s' s'' : MaterialSystem σ} {id : String} {i : Nat}

/-! ### Handles -/

theorem handle_of_place (hi : s.catalog.Indexed) (h : s.catalog.ids[i]? = some id) :
    s.handle id = ⟨i⟩ := by
  rw [handle, hi.value?_eq_some.2 h]
  rfl

theorem handle_of_not_loaded (hi : s.catalog.Indexed) (h : id ∉ s.catalog.ids) :
    s.handle id = .invalid := by
  have hnone : s.catalog.materialIndex.value? id = none := by
    rw [← Option.not_isSome_iff_eq_none]
    exact fun e => h (hi.has_iff.1 e)
  rw [handle, hnone]
  rfl

/-- A handle leads to the material at its place. -/
theorem id_material? (s : MaterialSystem σ) (h : MaterialHandle) :
    (s.material? h).map (·.id) = s.catalog.ids[h.index]? := by
  rw [material?, Catalog.ids, List.getElem?_map]

/-! ### What was loaded -/

/-- Two systems that were loaded from the same root in the same way, and hold the same. -/
structure SameLoad (s s' : MaterialSystem σ) : Prop where
  catalog : s'.catalog = s.catalog
  config  : s'.config = s.config
  root    : s'.root = s.root

namespace SameLoad

theorem refl (s : MaterialSystem σ) : SameLoad s s := ⟨rfl, rfl, rfl⟩

theorem trans (h : SameLoad s s') (h' : SameLoad s' s'') : SameLoad s s'' :=
  ⟨h'.catalog.trans h.catalog, h'.config.trans h.config, h'.root.trans h.root⟩

theorem of_forgets (h : Forgets s s') : SameLoad s s' := ⟨h.catalog, h.config, h.root⟩

end SameLoad

theorem sameLoad_serve (hi : s.catalog.Indexed) (src : Source) (r : PipelineRequest) :
    SameLoad s (s.serve src r).2 := by
  obtain ⟨workshop, pipelines, e⟩ := serve_frame hi src r
  rw [e]
  exact ⟨rfl, rfl, rfl⟩

theorem sameLoad_buildEach (hi : s.catalog.Indexed) (src : Source) (rs : List PassRequest) :
    SameLoad s (buildEach src s rs).2 := by
  induction rs generalizing s with
  | nil => exact .refl s
  | cons r rs ih =>
      have hone := sameLoad_serve hi src ⟨r.handle, r.pass?, r.renderPass⟩
      exact hone.trans (ih (hone.catalog ▸ hi))

theorem sameLoad_pipelineState (hi : s.catalog.Indexed) (src : Source) (h : MaterialHandle)
    (pass : String) : SameLoad s (s.pipelineState src h pass).2 :=
  sameLoad_serve hi src ⟨h, some pass, pass⟩

theorem sameLoad_setup (hi : s.catalog.Indexed) (src : Source) (i : MaterialInstance)
    (pass : String) : SameLoad s (i.setup s src pass).2 := by
  have hpipeline : SameLoad s (i.pipelineState s src pass).2 := by
    unfold MaterialInstance.pipelineState
    split
    · exact sameLoad_pipelineState hi src i.handle pass
    · exact .refl s
  unfold MaterialInstance.setup
  split
  · generalize i.pipelineState s src pass = x at hpipeline
    obtain ⟨p?, s'⟩ := x
    cases p? <;> exact hpipeline
  · exact .refl s

/-- The catalog that a command loads: that of a reload that succeeds. -/
def loaded? (s : MaterialSystem σ) : Command → Option Catalog
  | .reload src => (Catalog.load s.config src s.root).toOption
  | _           => none

/-- The catalog that was loaded last, after a row of commands. -/
def latest (s : MaterialSystem σ) (cs : List Command) : Catalog :=
  (cs.filterMap s.loaded?).getLast?.getD s.catalog

/-- A command that loads nothing leaves what was loaded. -/
theorem sameLoad_answer (hi : s.catalog.Indexed) {c : Command} (hc : s.loaded? c = none) :
    SameLoad s (s.answer c).2 := by
  cases c with
  | handle _ => exact .refl s
  | material _ => exact .refl s
  | materialOrFallback _ => exact .refl s
  | pass _ _ => exact .refl s
  | renderPass _ => exact .refl s
  | shaderFiles => exact .refl s
  | catalog => exact .refl s
  | cached => exact .refl s
  | pipeline src r => exact sameLoad_serve hi src r
  | pipelineState src i pass => exact sameLoad_pipelineState hi src i pass
  | setup src i pass => exact sameLoad_setup hi src i pass
  | buildAll src => exact sameLoad_buildEach hi src _
  | invalidateMaterial id => exact .of_forgets (forgets_invalidateMaterial s id)
  | shaderChanged file => exact .of_forgets (forgets_shaderChanged s file)
  | clearCaches => exact ⟨rfl, rfl, rfl⟩
  | reload src =>
      cases hload : Catalog.load s.config src s.root with
      | error f =>
          rw [answer, reload_of_error hload]
          exact .refl s
      | ok catalog =>
          rw [loaded?, hload] at hc
          cases hc

/-- What a command leaves: the catalog that it loads, or the one that was there.  The root and the
configuration stay. -/
theorem loaded_answer (hi : s.catalog.Indexed) (c : Command) :
    (s.answer c).2.catalog = (s.loaded? c).getD s.catalog ∧
    (s.answer c).2.config = s.config ∧ (s.answer c).2.root = s.root ∧
    (s.answer c).2.catalog.Indexed := by
  cases hc : s.loaded? c with
  | none =>
      obtain ⟨hcat, hconfig, hroot⟩ := sameLoad_answer hi hc
      exact ⟨hcat, hconfig, hroot, hcat ▸ hi⟩
  | some catalog =>
      -- nothing but a reload loads a catalog
      cases c with
      | reload src =>
          have hload : Catalog.load s.config src s.root = .ok catalog :=
            Result.toOption_eq_some.1 hc
          rw [answer, reload_of_ok hload]
          exact ⟨rfl, rfl, rfl, Catalog.indexed_of_load hload⟩
      | _ => cases hc

/-- The catalog after a row of commands. -/
theorem catalog_answers (hi : s.catalog.Indexed) (cs : List Command) :
    (s.answers cs).2.catalog = s.latest cs ∧ (s.answers cs).2.catalog.Indexed := by
  induction cs generalizing s with
  | nil => exact ⟨rfl, hi⟩
  | cons c cs ih =>
      obtain ⟨hcat, hconfig, hroot, hi'⟩ := loaded_answer hi c
      have hloaded : (s.answer c).2.loaded? = s.loaded? := by
        funext c'
        cases c' <;> simp only [loaded?, hconfig, hroot]
      have hrest := ih hi'
      refine ⟨hrest.1.trans ?_, hrest.2⟩
      rw [latest, latest, hloaded, hcat, List.filterMap_cons]
      cases s.loaded? c with
      | none => rfl
      | some catalog => simp [List.getLast?_cons]

/-! ### After a row of commands -/

/-- What the handle of an id leads to, when the id has a place in the catalog that the handle was
made from. -/
structure LeadsTo (s s' : MaterialSystem σ) (id : String) (i : Nat) : Prop where
  handle : s.handle id = ⟨i⟩
  /-- The material at the same place, or none if there are not so many. -/
  place  : (s'.material? (s.handle id)).map (·.id) = s'.catalog.ids[i]?
  /-- No other material, exactly when the place is gone or still that of the id. -/
  sound  : (∀ m, s'.material? (s.handle id) = some m → m.id = id) ↔
    s'.catalog.ids.length ≤ i ∨ s'.catalog.ids[i]? = some id
  /-- The material of the id, when the ids up to it are the same. -/
  kept   : s'.catalog.ids.take (i + 1) = s.catalog.ids.take (i + 1) →
    s'.handle id = s.handle id ∧ ∃ m, s'.material? (s.handle id) = some m ∧ m.id = id

theorem leadsTo_of_place (hi : s.catalog.Indexed) (hi' : s'.catalog.Indexed)
    (h : s.catalog.ids[i]? = some id) : LeadsTo s s' id i := by
  have hhandle := handle_of_place hi h
  have hplace := id_material? s' ⟨i⟩
  have hmaterial : ∀ m, s'.material? ⟨i⟩ = some m → s'.catalog.ids[i]? = some m.id := fun m hm => by
    rw [← hplace, hm]
    rfl
  refine ⟨hhandle, by rw [hhandle, hplace], ?_, fun hsame => ?_⟩
  · rw [hhandle]
    constructor
    · intro hsound
      cases hm : s'.material? ⟨i⟩ with
      | none =>
          rw [hm] at hplace
          exact .inl (List.getElem?_eq_none_iff.1 hplace.symm)
      | some m => exact .inr (hsound m hm ▸ hmaterial m hm)
    · intro hor m hm
      have hid := hmaterial m hm
      rcases hor with hgone | hstill
      · rw [List.getElem?_eq_none_iff.2 hgone] at hid
        cases hid
      · exact Option.some.inj (hid.symm.trans hstill)
  · have hstill : s'.catalog.ids[i]? = some id := by
      have hget := congrArg (·[i]?) hsame
      simpa [List.getElem?_take, h] using hget
    rw [handle_of_place hi' hstill, hhandle]
    refine ⟨rfl, ?_⟩
    rw [hstill, Option.map_eq_some_iff] at hplace
    exact hplace

/-- In every run, after a row of commands with any number of reloads: the catalog is that of the
last reload that succeeded, or the one from before if none did, and its ids are those that the
document loads.  The handle of an id that was loaded leads to the material at its place in this
catalog, or to none if there are not so many: so it leads to no other material exactly when the
place is gone or still that of the id, as it is when the ids up to it are the same.  The handle of
an id that was not loaded leads to none, as long as the index in it is past all materials. -/
theorem handle_after (h : Reachable tools s) (id : String) (cs : List Command) :
    (s.answers cs).2.catalog = s.latest cs ∧
    (∀ src catalog, Catalog.load s.config src s.root = .ok catalog →
      ∃ d, Document.load src s.root = .ok d ∧ catalog.ids = Catalog.loadedIds s.config src d) ∧
    (∀ i, s.catalog.ids[i]? = some id → LeadsTo s (s.answers cs).2 id i) ∧
    (id ∉ s.catalog.ids → s.handle id = .invalid ∧
      ((s.latest cs).materials.length ≤ MaterialHandle.invalid.index →
        (s.answers cs).2.material? (s.handle id) = none)) := by
  have hi := h.attributed.indexed
  obtain ⟨hcat, hi'⟩ := catalog_answers hi cs
  refine ⟨hcat, fun src catalog hload => Catalog.ids_of_load hload,
    fun i hplace => leadsTo_of_place hi hi' hplace, fun hnot => ?_⟩
  have hinvalid := handle_of_not_loaded hi hnot
  refine ⟨hinvalid, fun hfew => ?_⟩
  rw [hinvalid, material?, hcat]
  exact List.getElem?_eq_none_iff.2 hfew

end MaterialSystem

/-! ### A material that goes away -/

namespace TwoMaterials

open MaterialSystem

def entry (id : String) : String :=
  "\x7b\"id\":\"" ++ id ++ "\",\"shaders\":\x7b\"vertex\":" ++
    "\x7b\"file\":\"a\",\"profile\":\"vs_6_0\"\x7d\x7d\x7d"

/-- The files with materials of some ids. -/
def files (ids : List String) : Source :=
  ((({} : MemorySource).insertText "root.json"
      ("\x7b\"materials\":[" ++ ",".intercalate (ids.map entry) ++
        "],\"renderPasses\":[]\x7d")).insertText "a" "").toSource

def both : Source := files ["m1", "m2"]

/-- The files without the first material. -/
def without : Source := files ["m2"]

def idsIn (src : Source) : Option (List String) :=
  (Catalog.load {} src "root.json").toOption.map Catalog.ids

set_option maxRecDepth 100000 in
theorem idsIn_files : idsIn both = some ["m1", "m2"] ∧ idsIn without = some ["m2"] ∧
    Path.normalize "root.json" = .ok "root.json" := by
  decide +kernel

theorem load_of_idsIn {src : Source} {ids : List String} (h : idsIn src = some ids) :
    ∃ catalog, Catalog.load {} src "root.json" = .ok catalog ∧ catalog.ids = ids := by
  obtain ⟨catalog, hload, hids⟩ := Option.map_eq_some_iff.1 h
  exact ⟨catalog, Result.toOption_eq_some.1 hload, hids⟩

/-- A system with both materials. -/
theorem exists_loaded : ∃ s, Reachable SharedKey.tools s ∧ s.catalog.ids = ["m1", "m2"] ∧
    s.config = {} ∧ s.root = "root.json" := by
  obtain ⟨catalog, hload, hids⟩ := load_of_idsIn idsIn_files.1
  have hs : MaterialSystem.load SharedKey.tools {} {} both "root.json" = .ok
      { tools := SharedKey.tools, config := {}, root := "root.json", catalog,
        workshop := { device := {} } } := by
    rw [load_of_root idsIn_files.2.2, hload]
    rfl
  exact ⟨_, .load {} {} both "root.json" hs, hids, rfl, rfl⟩

/-- Not every handle leads to the material that it was made for, or to none. -/
theorem other_material : ¬ ∀ s, Reachable SharedKey.tools s → ∀ id (cs : List Command) m,
    (s.answers cs).2.material? (s.handle id) = some m → m.id = id := by
  intro hall
  obtain ⟨s, hs, hids, hconfig, hroot⟩ := exists_loaded
  obtain ⟨catalog, hload, hsecond⟩ := load_of_idsIn idsIn_files.2.1
  rw [← hconfig, ← hroot] at hload
  have hplace : (s.answers [.reload without]).2.catalog.ids = ["m2"] := by
    rw [(catalog_answers hs.attributed.indexed _).1]
    simp [latest, loaded?, hload, Except.toOption, hsecond]
  have hleads : LeadsTo s (s.answers [.reload without]).2 "m1" 0 :=
    leadsTo_of_place hs.attributed.indexed (catalog_answers hs.attributed.indexed _).2
      (by simp [hids])
  have hsound := hleads.sound.1 fun m hm => hall s hs "m1" _ m hm
  rw [hplace] at hsound
  simp at hsound

/-- The first material goes away and comes back, and then no file is found. -/
def history : List Command := [.reload without, .reload both, .reload NewMaterial.gone]

theorem ids_latest {s : MaterialSystem Counts} (hconfig : s.config = {})
    (hroot : s.root = "root.json") : (s.latest history).ids = ["m1", "m2"] := by
  obtain ⟨catalog, hload, hboth⟩ := load_of_idsIn idsIn_files.1
  obtain ⟨f, hgone⟩ := Result.exists_error_of_isOk_eq_false NewMaterial.loads.2.2.1
  rw [← hconfig, ← hroot] at hload hgone
  have hsome : s.loaded? (.reload both) = some catalog := by rw [loaded?, hload]; rfl
  have hnone : s.loaded? (.reload NewMaterial.gone) = none := by rw [loaded?, hgone]; rfl
  cases hfirst : s.loaded? (.reload without) with
  | none => simp [latest, history, hsome, hnone, hfirst, hboth]
  | some catalog' => simp [latest, history, hsome, hnone, hfirst, hboth]

/-- Both materials keep their handles, and another id leads to none. -/
theorem handles_kept : ∃ s, Reachable SharedKey.tools s ∧ s.catalog.ids = ["m1", "m2"] ∧
    (∀ id ∈ ["m1", "m2"], (s.answers history).2.handle id = s.handle id ∧
      ∃ m, (s.answers history).2.material? (s.handle id) = some m ∧ m.id = id) ∧
    (s.answers history).2.material? (s.handle "m3") = none := by
  obtain ⟨s, hs, hids, hconfig, hroot⟩ := exists_loaded
  have hlatest := ids_latest hconfig hroot
  obtain ⟨hcat, -, hfirst, -⟩ := handle_after hs "m1" history
  obtain ⟨-, -, hsecond, -⟩ := handle_after hs "m2" history
  obtain ⟨-, -, -, hthird⟩ := handle_after hs "m3" history
  have hsame : (s.answers history).2.catalog.ids = s.catalog.ids := by rw [hcat, hlatest, hids]
  refine ⟨s, hs, hids, fun id hid => ?_, (hthird (by simp [hids])).2 ?_⟩
  · simp only [List.mem_cons, List.not_mem_nil, or_false] at hid
    rcases hid with rfl | rfl
    · exact (hfirst 0 (by simp [hids])).kept (by rw [hsame])
    · exact (hsecond 1 (by simp [hids])).kept (by rw [hsame])
  · have htwo : (s.latest history).materials.length = 2 := by
      have hlength := congrArg List.length hlatest
      rwa [Catalog.ids, List.length_map] at hlength
    rw [htwo]
    decide

end TwoMaterials

end RenderMaterials
