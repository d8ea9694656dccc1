import RenderMaterials.Proofs.Reflection.Sharing
import RenderMaterials.Proofs.System.HotReload
import RenderMaterials.Proofs.System.References

/-!
# Material systems — what an edit makes them forget

A catalog lists for each shader file the materials that have a shader in it.  A system that is told
of an edit goes through this list: it drops the pipelines of each material and forgets each of its
shaders in the file.  Several materials can have one shader, and several shaders one entry, so that
an entry stays for as long as a shader of another file uses it.

* `ReflectionCache.Coherent.forgets`: what forgetting several identities does to a coherent cache.
* `Catalog.listed_of_load`: in every catalog that was loaded, the list of a file is that of the
  materials that name it, in their order.
* `shaderChanged_eq`: with such a list, what an edit does as one equation.
* `Reachable.coherent`: in every run the reflection cache is coherent.
* `shaderChanged_exact`: in every run an edit drops everything of its users, and nothing else.
-/

namespace RenderMaterials

/-! ### Forgetting several identities -/

namespace ReflectionCache

variable {c : ReflectionCache}

/-- Forgets identities. -/
def forget (c : ReflectionCache) (is : List String) : ReflectionCache :=
  is.foldl (fun c i => (c.invalidate i).2) c

theorem forget_cons (c : ReflectionCache) (i : String) (is : List String) :
    c.forget (i :: is) = (c.invalidate i).2.forget is := rfl

theorem forget_append (c : ReflectionCache) (is js : List String) :
    c.forget (is ++ js) = (c.forget is).forget js := List.foldl_append

/-- What forgetting identities does: they are gone, all others are where they were, and the entries
of these are as they were. -/
structure Forgets (c : ReflectionCache) (is : List String) : Prop where
  coherent   : (c.forget is).Coherent
  identities : ∀ j, (c.forget is).hashByIdentity.value? j =
    if j ∈ is then none else c.hashByIdentity.value? j
  entries    : ∀ j h, j ∉ is → c.hashByIdentity.value? j = some h →
    (c.forget is).entries.value? h = c.entries.value? h
  counters   : (c.forget is).counters = c.counters

theorem Coherent.forgets (hc : c.Coherent) (is : List String) : c.Forgets is := by
  induction is generalizing c with
  | nil => exact ⟨hc, fun j => by simp [forget], fun _ _ _ _ => rfl, rfl⟩
  | cons i is ih =>
      have hone := hc.forgetting i
      have hrest := ih (hc.invalidate i)
      refine ⟨hrest.coherent, fun j => ?_, fun j h hj hv => ?_, hrest.counters.trans hone.counters⟩
      · rw [forget_cons, hrest.identities, hone.identities]
        by_cases hj : j ∈ is
        · simp [hj]
        · simp [hj, eq_comm (a := i)]
      · simp only [List.mem_cons, not_or] at hj
        have hv' : (c.invalidate i).2.hashByIdentity.value? j = some h := by
          rw [hone.identities, if_neg (Ne.symm hj.1), hv]
        -- `j` is on the list of its hash, so that `i` is not alone there
        have hshared : c.identitiesAt h ≠ [i] := fun hl => by
          have hmem := (hc.bound_iff j h).1 hv
          rw [hl] at hmem
          exact hj.1 (List.mem_singleton.1 hmem)
        rw [forget_cons, hrest.entries j h hj.2 hv', hone.entries, if_neg hshared]

/-- An identity without a hash is on no list. -/
theorem Coherent.not_mem_identitiesAt (hc : c.Coherent) {i : String}
    (hv : c.hashByIdentity.value? i = none) (h : UInt64) : i ∉ c.identitiesAt h := fun hi => by
  have hb := (hc.bound_iff i h).2 hi
  rw [hv] at hb
  cases hb

/-- An identity with a hash has an entry. -/
theorem Coherent.exists_entry (hc : c.Coherent) {i : String} {h : UInt64}
    (hv : c.hashByIdentity.value? i = some h) : ∃ bs, c.entries.value? h = some bs :=
  Table.has_iff.1 ((hc.has_iff h).2 (List.ne_nil_of_mem ((hc.bound_iff i h).1 hv)))

theorem Coherent.clear (c : ReflectionCache) : c.clear.Coherent :=
  ⟨Coherent.empty.bound_iff, Coherent.empty.nodup, Coherent.empty.noEmptyList,
    Coherent.empty.live_iff⟩

end ReflectionCache

/-! ### Reflections while building -/

namespace Build

variable {σ α β : Type} {tools : Toolchain σ} {P : ReflectionCache → Prop}

/-- A step keeps what holds of the reflections, whether it succeeds or not. -/
def KeepsReflections (P : ReflectionCache → Prop) (x : Build σ α) : Prop :=
  ∀ w, P w.reflections → P (x.run w).2.reflections

theorem KeepsReflections.lift (r : Except MaterialError α) :
    KeepsReflections P (lift r : Build σ α) := fun _ hw => hw

theorem KeepsReflections.bind {x : Build σ α} {f : α → Build σ β} (hx : KeepsReflections P x)
    (hf : ∀ a, KeepsReflections P (f a)) : KeepsReflections P (x >>= f) := by
  intro w hw
  have h := hx w hw
  rw [run_bind]
  rcases hr : x.run w with ⟨e | a, w₁⟩
  · rw [hr] at h
    exact h
  · rw [hr] at h
    exact hf a w₁ h

theorem keepsReflections_shaders
    (hP : ∀ c code i, P c → P (c.getOrReflect tools.reflect code i).cache) (src : Source)
    (material pass : String) (l : LayoutBuilder) (ss : List ShaderReference) :
    KeepsReflections P (shaders tools src material pass l ss) := by
  induction ss generalizing l with
  | nil => exact .lift (.ok _)
  | cons s ss ih =>
      refine KeepsReflections.bind (fun w hw => ?_) fun code => ?_
      · obtain ⟨calls, h⟩ := run_compile tools src material pass s w
        rw [h]
        exact hw
      refine KeepsReflections.bind (fun w hw => ?_) fun bindings => ?_
      · obtain ⟨calls, h⟩ := run_reflect tools code s.identity w
        rw [h]
        exact hP _ code s.identity hw
      refine KeepsReflections.bind (.lift _) fun _ => ?_
      exact (ih _).bind fun _ => .lift (.ok _)

end Build

/-- A build keeps what every look-up of bindings keeps. -/
theorem Material.keepsReflections_build {σ : Type} {tools : Toolchain σ}
    {P : ReflectionCache → Prop}
    (hP : ∀ c code i, P c → P (c.getOrReflect tools.reflect code i).cache) (src : Source)
    (states : StateRegistry) (m : Material) (pass : Option String) (config : RenderPassConfig) :
    Build.KeepsReflections P (m.build tools src states pass config) := by
  unfold build
  refine .bind (.lift _) fun s => ?_
  refine .bind (Build.keepsReflections_shaders hP src m.id s.pass.label {} s.pass.shaders)
    fun r => ?_
  refine .bind (.lift _) fun spec => ?_
  refine .bind (fun w hw => ?_) fun layout => ?_
  · obtain ⟨calls, h⟩ := Build.run_layout tools spec w
    rw [h]
    exact hw
  refine .bind (.lift _) fun vertexFormat? => ?_
  refine .bind (fun w hw => ?_) fun pipeline => .lift (.ok _)
  rw [Build.run_pipeline]
  exact hw

/-! ### The users of a file -/

instance (m : Material) (file : String) : Decidable (m.Names file) :=
  inferInstanceAs (Decidable (∃ s ∈ m.shaders, s.file = file))

/-- The identities of a material's shaders in a file. -/
def Material.identitiesIn (m : Material) (file : String) : List String :=
  (m.shaders.filter (·.file = file)).map (·.identity)

theorem Material.mem_identitiesIn {m : Material} {file i : String} :
    i ∈ m.identitiesIn file ↔ ∃ t ∈ m.shaders, t.file = file ∧ t.identity = i := by
  simp [identitiesIn, and_assoc]

namespace Catalog

variable {c : Catalog} {m : Material} {file : String}

/-- The materials that have a shader in a file. -/
def usersOf (c : Catalog) (file : String) : List Material := c.materials.filter (·.Names file)

/-- The list of every file is that of its users, in the order of the materials. -/
def Listed (c : Catalog) : Prop :=
  ∀ file, (c.shaderUsers.value? file).getD [] = (c.usersOf file).map (·.id)

/-- A material goes to the end of the list of a file, unless it is there. -/
theorem users_addUser (id : String) (users : Table String (List String)) (file file' : String) :
    ((addUser id users file).value? file').getD [] =
      if file' = file ∧ id ∉ (users.value? file').getD [] then
        (users.value? file').getD [] ++ [id]
      else (users.value? file').getD [] := by
  unfold addUser
  dsimp only
  by_cases hf : file' = file
  · subst hf
    by_cases hid : id ∈ (users.value? file').getD []
    · simp [hid]
    · simp [hid]
  · split
    · simp [hf]
    · simp [hf, Table.value?_assign, Ne.symm hf]

theorem users_foldl_addUser (id : String) (files : List String)
    (users : Table String (List String)) (file : String) :
    ((files.foldl (addUser id) users).value? file).getD [] =
      if file ∈ files ∧ id ∉ (users.value? file).getD [] then
        (users.value? file).getD [] ++ [id]
      else (users.value? file).getD [] := by
  induction files generalizing users with
  | nil => simp
  | cons f files ih =>
      rw [List.foldl_cons, ih, users_addUser]
      by_cases hf : file = f
      · by_cases hid : id ∈ (users.value? file).getD []
        · simp [hid]
        · simp [hf ▸ hid, hf]
      · simp [hf]

theorem Indexed.listed_addMaterial (h : c.Indexed) (hl : c.Listed) (m : Material) :
    (c.addMaterial m).Listed := by
  unfold Catalog.addMaterial
  split
  · exact hl
  · next hnew =>
      intro file
      -- the id is new, so that no list has it
      have hid : m.id ∉ (c.shaderUsers.value? file).getD [] := by
        rw [h.users]
        rintro ⟨n, hn, e, -⟩
        simp only [Bool.or_eq_true, not_or, Bool.not_eq_true] at hnew
        rw [← e, h.known n hn] at hnew
        cases hnew.2
      have hnames : file ∈ m.shaders.map (·.file) ↔ m.Names file := List.mem_map
      dsimp only
      rw [users_foldl_addUser]
      by_cases hm : m.Names file
      · rw [if_pos ⟨hnames.2 hm, hid⟩, hl]
        simp [usersOf, hm]
      · rw [if_neg fun e => hm (hnames.1 e.1), hl]
        simp [usersOf, hm]

theorem Listed.addRenderPass (hl : c.Listed) (r : RenderPass) : (c.addRenderPass r).Listed := by
  unfold Catalog.addRenderPass
  split
  · exact hl
  · exact hl

theorem Indexed.listed_foldl (h : c.Indexed) (hl : c.Listed) (ms : List Material)
    (rs : List RenderPass) :
    (rs.foldl Catalog.addRenderPass (ms.foldl Catalog.addMaterial c)).Listed :=
  (foldl_induction (P := fun c => c.Indexed ∧ c.Listed) ⟨h, hl⟩
    (fun _ m hc => ⟨hc.1.addMaterial m, hc.1.listed_addMaterial hc.2 m⟩)
    (fun _ r hc => ⟨hc.1.addRenderPass r, hc.2.addRenderPass r⟩) ms rs).2

/-- In every catalog that was loaded, the list of a file is that of its users. -/
theorem listed_of_load {config : SystemConfig} {src : Source} {root : String}
    (h : load config src root = .ok c) : c.Listed := by
  obtain ⟨d, -, hd⟩ := load_eq_ok.1 h
  obtain ⟨states, -, rfl, -⟩ := read_eq_ok hd
  exact (indexed_empty states d.files).listed_foldl (fun _ => rfl) _ _

/-- No two users of a file are one. -/
theorem Indexed.nodup_usersOf (h : c.Indexed) (file : String) :
    ((c.usersOf file).map (·.id)).Nodup :=
  h.nodup.sublist (List.filter_sublist.map _)

end Catalog

namespace MaterialSystem

variable {σ : Type} {tools : Toolchain σ} {s s' : MaterialSystem σ} {m : Material} {file : String}

/-! ### What an edit does -/

theorem materialOfId?_of_mem (hi : s.catalog.Indexed) (hm : m ∈ s.catalog.materials) :
    s.materialOfId? m.id = some m := by
  obtain ⟨i, hv, hn⟩ := Option.bind_eq_some_iff.1 (hi.material?_of_mem hm)
  simp only [materialOfId?, material?, handle, hv]
  exact hn

theorem forgetShaders_eq (m : Material) (file : String) (c : ReflectionCache) :
    forgetShaders m file c = c.forget (m.identitiesIn file) := by
  rw [ReflectionCache.forget, Material.identitiesIn, List.foldl_map]
  rfl

/-- A system without the pipelines of some materials and without their shaders in a file. -/
def withoutUsers (s : MaterialSystem σ) (ms : List Material) (file : String) : MaterialSystem σ :=
  { s with
    workshop  := { s.workshop with
      reflections := s.workshop.reflections.forget (ms.flatMap (·.identitiesIn file)) }
    pipelines := { s.pipelines with
      entries := s.pipelines.entries.filter fun e => e.2.material ∉ ms.map (·.id) } }

theorem forgetUser_eq (hi : s.catalog.Indexed) (hm : m ∈ s.catalog.materials) :
    forgetUser file s m.id = s.withoutUsers [m] file := by
  simp only [forgetUser, materialOfId?_of_mem hi hm, forgetShaders_eq, withoutUsers,
    PipelineCache.invalidate, List.flatMap_cons, List.flatMap_nil, List.append_nil, List.map_cons,
    List.map_nil, List.mem_singleton, ne_eq]

theorem withoutUsers_withoutUsers (s : MaterialSystem σ) (ms ns : List Material) (file : String) :
    (s.withoutUsers ms file).withoutUsers ns file = s.withoutUsers (ms ++ ns) file := by
  simp only [withoutUsers, List.flatMap_append, ReflectionCache.forget_append, List.filter_filter,
    List.map_append, List.mem_append, not_or, Bool.decide_and, Bool.and_comm]

theorem foldl_forgetUser (hi : s.catalog.Indexed) {ms : List Material}
    (hms : ms ⊆ s.catalog.materials) :
    (ms.map (·.id)).foldl (forgetUser file) s = s.withoutUsers ms file := by
  induction ms generalizing s with
  | nil => simp [withoutUsers, ReflectionCache.forget]
  | cons m ms ih =>
      obtain ⟨hm, hms⟩ := List.cons_subset.1 hms
      have hrest := ih (s := s.withoutUsers [m] file) hi hms
      rw [List.map_cons, List.foldl_cons, forgetUser_eq hi hm, hrest, withoutUsers_withoutUsers]
      rfl

/-- An edit of a file leaves a system without the users of the file, and counts them. -/
theorem shaderChanged_eq (hi : s.catalog.Indexed) (hl : s.catalog.Listed)
    (hot : s.config.hotReload = true) {path : String} (hn : Path.normalize path = .ok file) :
    s.shaderChanged path =
      ((s.catalog.usersOf file).length, s.withoutUsers (s.catalog.usersOf file) file) := by
  have husers : s.catalog.usersOf file ⊆ s.catalog.materials := List.filter_subset_self _
  unfold shaderChanged
  simp only [hot, hn, hl file, List.length_map, foldl_forgetUser hi husers]
  rfl

/-- An edit leaves a system as it is, or without the users of a file. -/
theorem shaderChanged_cases (hi : s.catalog.Indexed) (hl : s.catalog.Listed) (path : String) :
    (s.shaderChanged path).2 = s ∨
      ∃ file, (s.shaderChanged path).2 = s.withoutUsers (s.catalog.usersOf file) file := by
  by_cases hot : s.config.hotReload = true
  · cases hn : Path.normalize path with
    | error e =>
        left
        simp only [shaderChanged, hot, hn]
        rfl
    | ok file => exact .inr ⟨file, by rw [shaderChanged_eq hi hl hot hn]⟩
  · left
    simp only [shaderChanged, hot]
    rfl

/-! ### Runs -/

/-- A system that was loaded has a catalog and has built nothing. -/
theorem eq_of_load {device : σ} {config : SystemConfig} {src : Source} {root : String}
    (h : load tools device config src root = .ok s) :
    ∃ path catalog, Catalog.load config src path = .ok catalog ∧
      s = { tools, config, root := path, catalog, workshop := { device } } := by
  obtain ⟨path, -, h⟩ := Result.bind_eq_ok.1 h
  obtain ⟨catalog, hc, h⟩ := Result.bind_eq_ok.1 h
  exact ⟨path, catalog, hc, (Except.ok.inj h).symm⟩

theorem Reachable.listed (h : Reachable tools s) : s.catalog.Listed := by
  obtain ⟨-, config, src, root, hload⟩ := h.loaded
  exact Catalog.listed_of_load hload

theorem coherent_serve (hi : s.catalog.Indexed) (hc : s.workshop.reflections.Coherent)
    (src : Source) (r : PipelineRequest) :
    (s.serve src r).2.workshop.reflections.Coherent := by
  have hs := serving hi src r
  have hbuild : ∀ {m : Material} {config : RenderPassConfig} {result w},
      (m.build s.tools src s.catalog.states r.pass config).run s.workshop = (result, w) →
      w.reflections.Coherent := fun {m config result w} hb => by
    have h := m.keepsReflections_build
      (fun c code i (hc : c.Coherent) => hc.getOrReflect s.tools.reflect code i) src
      s.catalog.states r.pass config s.workshop hc
    rwa [hb] at h
  generalize s.serve src r = a at hs ⊢
  cases hs with
  | unselected _ => exact hc
  | found _ _ _ => exact hc
  | unknown _ => exact hc
  | failed _ _ hb => exact hbuild hb
  | built _ _ hb _ => exact hbuild hb

/-- In every run the reflection cache is coherent. -/
theorem Reachable.coherent (h : Reachable tools s) : s.workshop.reflections.Coherent := by
  induction h with
  | load device config src root h =>
      obtain ⟨path, catalog, -, rfl⟩ := eq_of_load h
      exact .empty
  | serve src r h ih => exact coherent_serve h.attributed.indexed ih src r
  | @shaderChanged s path h ih =>
      rcases shaderChanged_cases h.attributed.indexed h.listed path with e | ⟨file, e⟩
      · rw [e]
        exact ih
      · rw [e]
        exact (ih.forgets _).coherent
  | invalidateMaterial id _ ih => exact ih
  | clearCaches _ _ => exact .clear _
  | @reload s src _ ih =>
      unfold MaterialSystem.reload
      split
      · exact .clear _
      · exact ih

/-! ### Exactness -/

/-- What being told of an edit of a file does, when edits are followed. -/
structure Invalidated (s : MaterialSystem σ) (file : String) (count : Nat) (s' : MaterialSystem σ) :
    Prop where
  /-- The materials with a shader in the file are counted. -/
  count     : count = (s.catalog.usersOf file).length
  /-- No two of them are one. -/
  distinct  : ((s.catalog.usersOf file).map (·.id)).Nodup
  /-- Of the pipelines, those of these materials are gone and all others are there. -/
  pipelines : ∀ k p, (k, p) ∈ s'.pipelines.entries ↔
    (k, p) ∈ s.pipelines.entries ∧ ∀ m ∈ s.catalog.usersOf file, m.id ≠ p.material
  /-- The pipelines of other materials are found as before. -/
  found     : ∀ k p, s.pipelines.entries.value? k = some p →
    (∀ m ∈ s.catalog.usersOf file, m.id ≠ p.material) → s'.pipelines.entries.value? k = some p
  /-- The shaders of these materials in the file are not tracked any more. -/
  untracked : ∀ m ∈ s.catalog.usersOf file, ∀ t ∈ m.shaders, t.file = file →
    s'.workshop.reflections.containsIdentity t.identity = false ∧
    ∀ h, t.identity ∉ s'.workshop.reflections.identitiesAt h
  /-- Every other identity that was tracked has its entry, with the same bindings. -/
  tracked   : ∀ i h, s.workshop.reflections.hashByIdentity.value? i = some h →
    (∀ m ∈ s.catalog.usersOf file, ∀ t ∈ m.shaders, t.file = file → t.identity ≠ i) →
    s'.workshop.reflections.hashByIdentity.value? i = some h ∧
    ∃ bs, s.workshop.reflections.entries.value? h = some bs ∧
      s'.workshop.reflections.entries.value? h = some bs
  /-- Nothing else changes, and nothing is counted in the caches. -/
  frame     : ∃ reflections entries, reflections.counters = s.workshop.reflections.counters ∧
    s' = { s with
      workshop  := { s.workshop with reflections }
      pipelines := { s.pipelines with entries } }

theorem invalidated_of_coherent (hi : s.catalog.Indexed) (hc : s.workshop.reflections.Coherent)
    (file : String) :
    s.Invalidated file (s.catalog.usersOf file).length
      (s.withoutUsers (s.catalog.usersOf file) file) := by
  have hforgets := hc.forgets ((s.catalog.usersOf file).flatMap (·.identitiesIn file))
  have hother : ∀ p : CompiledPipeline, p.material ∉ (s.catalog.usersOf file).map (·.id) ↔
      ∀ m ∈ s.catalog.usersOf file, m.id ≠ p.material := fun p => by simp
  refine ⟨rfl, hi.nodup_usersOf file, fun k p => ?_, fun k p hp hm => ?_, fun m hm t ht hf => ?_,
    fun i h hv hno => ?_, ⟨_, _, hforgets.counters, rfl⟩⟩
  · rw [← hother]
    simp [withoutUsers]
  · exact Table.value?_filter hp (decide_eq_true ((hother p).2 hm))
  · have hmem : t.identity ∈ (s.catalog.usersOf file).flatMap (·.identitiesIn file) :=
      List.mem_flatMap.2 ⟨m, hm, Material.mem_identitiesIn.2 ⟨t, ht, hf, rfl⟩⟩
    have hgone := hforgets.identities t.identity
    rw [if_pos hmem] at hgone
    refine ⟨?_, hforgets.coherent.not_mem_identitiesAt hgone⟩
    rw [ReflectionCache.containsIdentity, Table.has]
    exact (congrArg Option.isSome hgone).trans rfl
  · have hmem : i ∉ (s.catalog.usersOf file).flatMap (·.identitiesIn file) := fun hmem => by
      obtain ⟨m, hm, hin⟩ := List.mem_flatMap.1 hmem
      obtain ⟨t, ht, hf, e⟩ := Material.mem_identitiesIn.1 hin
      exact hno m hm t ht hf e
    obtain ⟨bs, hbs⟩ := hc.exists_entry hv
    refine ⟨?_, bs, hbs, (hforgets.entries i h hmem hv).trans hbs⟩
    exact (hforgets.identities i).trans ((if_neg hmem).trans hv)

/-- In every run, a system that follows edits and is told of the edit of a file drops the pipelines
of the materials that have a shader in the file and forgets these shaders, counts these materials,
and changes nothing else.  A path that stands for no file changes nothing, and no edit changes a
system that does not follow edits. -/
theorem shaderChanged_exact (h : Reachable tools s) (path : String) :
    (s.config.hotReload = false → s.shaderChanged path = (0, s)) ∧
    (s.config.hotReload = true →
      (∀ e, Path.normalize path = .error e → s.shaderChanged path = (0, s)) ∧
      ∀ file, Path.normalize path = .ok file →
        s.Invalidated file (s.shaderChanged path).1 (s.shaderChanged path).2) := by
  refine ⟨fun cold => ?_, fun hot => ⟨fun e hn => ?_, fun file hn => ?_⟩⟩
  · simp only [shaderChanged, cold]
    rfl
  · simp only [shaderChanged, hot, hn]
    rfl
  · rw [shaderChanged_eq h.attributed.indexed h.listed hot hn]
    exact invalidated_of_coherent h.attributed.indexed h.coherent file

end MaterialSystem

/-! ### Two materials with a file each -/

namespace TwoFiles

open MaterialSystem

/-- The shaders have different identities and, with tools that take everything, the same code. -/
def rootText : String :=
  "\x7b\"materials\":[\x7b\"id\":\"m1\",\"shaders\":\x7b\"vertex\":" ++
    "\x7b\"file\":\"lit.wgsl\",\"profile\":\"vs_6_0\"\x7d\x7d\x7d," ++
  "\x7b\"id\":\"m2\",\"shaders\":\x7b\"vertex\":" ++
    "\x7b\"file\":\"sky.wgsl\",\"profile\":\"vs_6_0\"\x7d\x7d\x7d]," ++
  "\"renderPasses\":[\x7b\"name\":\"forward\"\x7d]\x7d"

def files : Source :=
  (((({} : MemorySource).insertText "root.json" rootText).insertText "lit.wgsl" "").insertText
    "sky.wgsl" "").toSource

def request (i : Nat) : PipelineRequest := ⟨⟨i⟩, none, "forward"⟩

/-- A system that has served both materials. -/
def served (s : MaterialSystem Counts) : MaterialSystem Counts :=
  ((s.serve files (request 0)).2.serve files (request 1)).2

/-- The first material is served and does not name the second file.  Once both are served, an edit
of the first file counts one material and leaves the pipeline of the other. -/
def dropsOne (s : MaterialSystem Counts) : Bool :=
  let edited := (served s).shaderChanged "./lit.wgsl"
  ((s.serve files (request 0)).1.toOption.map (·.material) = some "m1" &&
    s.catalog.materials.all fun m => m.id = "m1" → ¬ m.Names "sky.wgsl") &&
  ((served s).config.hotReload && ((served s).pipelines.entries.length = 2 &&
    (edited.1 = 1 && edited.2.pipelines.entries.values.map (·.material) = ["m2"])))

set_option maxRecDepth 100000 in
theorem exists_dropsOne :
    ∃ s, MaterialSystem.load SharedKey.tools {} {} files "root.json" = .ok s ∧
      dropsOne s = true := by
  have h : (match MaterialSystem.load SharedKey.tools {} {} files "root.json" with
      | .ok s    => dropsOne s
      | .error _ => false) = true := by decide +kernel
  split at h
  · next s hload => exact ⟨s, hload, h⟩
  · cases h

/-- An edit of the file of one of the materials. -/
theorem edit_of_one : ∃ s, Reachable SharedKey.tools s ∧ s.config.hotReload = true ∧
    Path.normalize "./lit.wgsl" = .ok "lit.wgsl" ∧ s.pipelines.entries.length = 2 ∧
    (s.shaderChanged "./lit.wgsl").2.pipelines.entries.values.map (·.material) = ["m2"] ∧
    s.Invalidated "lit.wgsl" 1 (s.shaderChanged "./lit.wgsl").2 := by
  obtain ⟨s, hload, h⟩ := exists_dropsOne
  simp only [dropsOne, Bool.and_eq_true, decide_eq_true_eq] at h
  obtain ⟨-, hot, htwo, hone, hleft⟩ := h
  have hs : Reachable SharedKey.tools (served s) :=
    .serve files (request 1) (.serve files (request 0) (.load {} {} files "root.json" hload))
  have hn : Path.normalize "./lit.wgsl" = .ok "lit.wgsl" := by decide +kernel
  have hall := ((shaderChanged_exact hs "./lit.wgsl").2 hot).2 "lit.wgsl" hn
  rw [hone] at hall
  exact ⟨served s, hs, hot, hn, htwo, hleft, hall⟩

end TwoFiles

end RenderMaterials
