import RenderMaterials.Proofs.Material.WellFormed
import RenderMaterials.Proofs.Reflection.Usage
import RenderMaterials.Proofs.Shader.Footprint
import RenderMaterials.Proofs.System.Serving

/-!
# Material systems — following edits

A system that follows edits is told of each file that is edited, and drops the pipelines of the
materials that name it.  The text of a shader is made of more files than the one that its material
names: those that are put in are in its footprint, and nobody notes them.  An edit of a file is
`Noted` for a request when the material names the file, or no shader of the pass has it in its
footprint.

* `UpToDate`: a pipeline was made of what its request is planned as on the files of a source.
* `Fresh.edited`: an edit that is noted for all requests leaves all pipelines up to date.
* `followed_iff`: in a run of such edits every pipeline that is served is up to date, and stays so
  after all further edits of a file exactly when these are noted.
* `SharedInclude.outdated_served`: a run that serves a pipeline of an outdated file.
-/

namespace RenderMaterials

section Following

variable {σ : Type} {tools : Toolchain σ} {codes : Bytecode → Prop} {src src' : Source}
  {file : String}

/-- Some shader of a material is in a file. -/
def Material.Names (m : Material) (file : String) : Prop := ∃ s ∈ m.shaders, s.file = file

namespace Catalog

/-- A file is named by the material of a request, or in the footprint of no shader of the pass. -/
def Noted (c : Catalog) (src : Source) (file : String) (r : PipelineRequest) : Prop :=
  ∀ m q, c.select? r = some (m, q) → ∀ s ∈ q.shaders, ∀ fs,
    Shader.footprint? src s.file = some fs → file ∈ fs → m.Names file

/-- Edits of a file are noted for all requests. -/
def NotedByAll (c : Catalog) (src : Source) (file : String) : Prop := ∀ r, c.Noted src file r

/-- The code of all shaders is in a set. -/
def Compiles (c : Catalog) (tools : Toolchain σ) (src : Source) (codes : Bytecode → Prop) : Prop :=
  ∀ m ∈ c.materials, RenderMaterials.Compiles tools src codes m.shaders

/-- What compiles without a file compiles with it. -/
theorem Compiles.without {c : Catalog} (h : c.Compiles tools src codes)
    (hc : ByText tools.compile) (hb : src.Bounded)
    (hcan : ∀ m ∈ c.materials, CanonicalFiles m.shaders) :
    c.Compiles tools (src.without file) codes :=
  fun m hm s hs code hcode => h m hm s hs code (hc.compile_of_without hb (hcan m hm s hs) hcode)

end Catalog

namespace MaterialSystem

variable {s s' : MaterialSystem σ} {r r₀ : PipelineRequest} {p : CompiledPipeline}

/-! ### Runs -/

/-- A system that follows edits, and the source as it is by now.  It was told of each edit, and
served requests and forgot in between.  `edits` holds of each file when it is edited, and `codes` of
all code that shaders were compiled to. -/
inductive Watched (tools : Toolchain σ) (edits : Catalog → Source → String → Prop)
    (codes : Bytecode → Prop) : Source → MaterialSystem σ → Prop
  | load {src : Source} {s : MaterialSystem σ} (device : σ) (config : SystemConfig)
      (root : String) : src.Bounded → config.hotReload = true →
      load tools device config src root = .ok s → s.catalog.Compiles tools src codes →
      Watched tools edits codes src s
  | edit {src src' : Source} {s : MaterialSystem σ} {file : String} (path : String) :
      Path.normalize path = .ok file → Source.Edit file src src' → edits s.catalog src file →
      s.catalog.Compiles tools src' codes → Watched tools edits codes src s →
      Watched tools edits codes src' (s.shaderChanged path).2
  | serve {src : Source} {s : MaterialSystem σ} (r : PipelineRequest) :
      Watched tools edits codes src s → Watched tools edits codes src (s.serve src r).2
  | invalidateMaterial {src : Source} {s : MaterialSystem σ} (id : String) :
      Watched tools edits codes src s → Watched tools edits codes src (s.invalidateMaterial id).2
  | clearCaches {src : Source} {s : MaterialSystem σ} :
      Watched tools edits codes src s → Watched tools edits codes src s.clearCaches

theorem Watched.bounded {edits : Catalog → Source → String → Prop}
    (h : Watched tools edits codes src s) : src.Bounded := by
  induction h with
  | load _ _ _ hb _ _ _ => exact hb
  | edit _ _ he _ _ _ _ => exact he.bounded
  | serve _ _ ih => exact ih
  | invalidateMaterial _ _ ih => exact ih
  | clearCaches _ ih => exact ih

/-! ### What an edit drops -/

theorem entries_foldl_forgetUser (file : String) (ids : List String) (s : MaterialSystem σ) :
    (ids.foldl (forgetUser file) s).pipelines.entries =
      s.pipelines.entries.filter fun e => e.2.material ∉ ids := by
  induction ids generalizing s with
  | nil => simp
  | cons id ids ih =>
      rw [List.foldl_cons, ih]
      change List.filter _ (List.filter _ s.pipelines.entries) = _
      rw [List.filter_filter]
      refine List.filter_congr fun e _ => ?_
      simp [Bool.and_comm]

/-- An edit drops the pipelines of the materials that are noted for the file. -/
theorem entries_shaderChanged (hot : s.config.hotReload = true) {path : String}
    (hn : Path.normalize path = .ok file) :
    (s.shaderChanged path).2.pipelines.entries =
      s.pipelines.entries.filter fun e =>
        e.2.material ∉ (s.catalog.shaderUsers.value? file).getD [] := by
  unfold shaderChanged
  simp only [hot, hn]
  exact entries_foldl_forgetUser file _ s

/-- The material of a pipeline that an edit leaves does not name the file. -/
theorem not_names_of_kept (hi : s.catalog.Indexed) (hot : s.config.hotReload = true) {path : String}
    (hn : Path.normalize path = .ok file) {k : UInt64}
    (hp : (k, p) ∈ (s.shaderChanged path).2.pipelines.entries) {m : Material}
    (hm : m ∈ s.catalog.materials) (hid : m.id = p.material) : ¬ m.Names file := by
  intro hnames
  rw [entries_shaderChanged hot hn] at hp
  have hgone := of_decide_eq_true (List.mem_filter.1 hp).2
  rw [hi.users] at hgone
  exact hgone ⟨m, hm, hid, hnames⟩

/-- A pipeline is found as before when its material does not name the file that was edited. -/
theorem kept_of_not_names (hi : s.catalog.Indexed) (hot : s.config.hotReload = true) {path : String}
    (hn : Path.normalize path = .ok file) {k : UInt64} (hp : s.pipelines.entries.value? k = some p)
    (hm : ∀ m ∈ s.catalog.materials, m.id = p.material → ¬ m.Names file) :
    (s.shaderChanged path).2.pipelines.entries.value? k = some p := by
  rw [entries_shaderChanged hot hn]
  refine Table.value?_filter hp ?_
  rw [decide_eq_true_iff, hi.users]
  rintro ⟨m, hmem, hid, hnames⟩
  exact hm m hmem hid hnames

/-! ### Plans of requests -/

/-- What a request is planned as on the files of a source. -/
structure Planned (s : MaterialSystem σ) (src : Source) (r : PipelineRequest) (m : Material)
    (config : RenderPassConfig) (pl : Plan) : Prop where
  material : s.catalog.materials[r.handle.index]? = some m
  resolves : s.renderPassConfig r.renderPass = .ok config
  plan     : m.plan s.tools src s.catalog.states r.pass config = .ok pl

/-- A pipeline that the backend made of what its request is planned as. -/
def UpToDate (s : MaterialSystem σ) (src : Source) (r : PipelineRequest) (p : CompiledPipeline) :
    Prop :=
  ∃ m config pl, s.Planned src r m config pl ∧ pl.spec = p.spec ∧
    s.workshop.layouts.entries.value? p.spec.hash = some (p.spec, p.layout) ∧
    ∃ device, (s.tools.backend.createPipeline (pl.descriptor m config p.layout) device).1 =
      .ok p.pipeline

namespace Planned

variable {m : Material} {config : RenderPassConfig} {pl : Plan}

/-- The pass of a plan is the one that its request selects. -/
theorem select (h : s.Planned src r m config pl) :
    s.catalog.select? r = some (m, pl.setting.pass) :=
  Catalog.select?_eq_some.2 ⟨h.material, Material.resolvePass_of_plan h.plan⟩

theorem mem_materials (h : s.Planned src r m config pl) : m ∈ s.catalog.materials :=
  List.mem_of_getElem? h.material

theorem mem_shaders (h : s.Planned src r m config pl) {t : ShaderReference}
    (ht : t ∈ pl.setting.pass.shaders) : t ∈ m.shaders :=
  List.mem_flatMap.2 ⟨pl.setting.pass,
    Material.mem_passes_of_resolvePass (Material.resolvePass_of_plan h.plan), ht⟩

/-- Systems with one catalog and one set of tools plan alike. -/
theorem of_catalog (h : s.Planned src r m config pl) (ht : s'.tools = s.tools)
    (hc : s'.catalog = s.catalog) : s'.Planned src r m config pl := by
  refine ⟨hc ▸ h.material, ?_, ?_⟩
  · have hconfig := h.resolves
    unfold renderPassConfig at hconfig ⊢
    rwa [hc]
  · rw [ht, hc]
    exact h.plan

/-- A plan stays when the edited file is in the footprint of no shader of the pass. -/
theorem edited (h : s.Planned src r m config pl) (hc : ByText s.tools.compile)
    (he : Source.Edit file src src') (hcan : CanonicalFiles m.shaders)
    (hf : ∀ t ∈ pl.setting.pass.shaders, ∀ fs, Shader.footprint? src t.file = some fs → file ∉ fs) :
    s.Planned src' r m config pl :=
  ⟨h.material, h.resolves, Material.plan_congr (fun t ht _ hcode =>
    hc.compile_of_edit he (hcan t (h.mem_shaders ht)) (hf t ht) hcode) h.plan⟩

end Planned

namespace UpToDate

theorem of_grows (h : s.UpToDate src r p) (ht : s'.tools = s.tools) (hc : s'.catalog = s.catalog)
    (hl : s.workshop.layouts.Grows s'.workshop.layouts) : s'.UpToDate src r p := by
  obtain ⟨m, config, pl, hp, hspec, hlayout, hmade⟩ := h
  exact ⟨m, config, pl, hp.of_catalog ht hc, hspec, hl _ _ hlayout, ht ▸ hmade⟩

/-- Requests of one origin are planned alike. -/
theorem of_origin (h : s.UpToDate src r₀ p) (hi : s.catalog.Indexed)
    (ho : s.catalog.origin? r = s.catalog.origin? r₀) : s.UpToDate src r p := by
  obtain ⟨m, config, pl, hp, hmade⟩ := h
  rw [Catalog.origin?, Catalog.origin?, hp.select] at ho
  obtain ⟨⟨m', q⟩, hsel, e⟩ := Option.map_eq_some_iff.1 ho
  obtain ⟨hm, hq⟩ := Catalog.select?_eq_some.1 hsel
  simp only [Origin.mk.injEq] at e
  obtain ⟨hid, hname, hrp⟩ := e
  -- ids tell materials apart, and names tell the passes of a material apart
  obtain rfl : m' = m := List.inj_on_of_nodup_map hi.nodup (List.mem_of_getElem? hm)
    hp.mem_materials hid
  have hq₀ := Material.resolvePass_of_plan hp.plan
  obtain rfl := Material.resolvePass_unique hq hq₀ hname
  refine ⟨m', config, pl, ⟨hm, hrp ▸ hp.resolves, ?_⟩, hmade⟩
  rw [Material.plan_eq_of_resolvePass (hq.trans hq₀.symm)]
  exact hp.plan

/-- A pipeline stays up to date when the file is noted and its material does not name it. -/
theorem edited (h : s.UpToDate src r p) (hc : ByText s.tools.compile)
    (hcan : ∀ m ∈ s.catalog.materials, CanonicalFiles m.shaders) (he : Source.Edit file src src')
    (hnoted : s.catalog.Noted src file r)
    (hm : ∀ m q, s.catalog.select? r = some (m, q) → ¬ m.Names file) : s.UpToDate src' r p := by
  obtain ⟨m, config, pl, hp, hmade⟩ := h
  refine ⟨m, config, pl, hp.edited hc he (hcan m hp.mem_materials) (fun t ht fs hfs hin => ?_),
    hmade⟩
  exact hm m _ hp.select (hnoted m _ hp.select t ht fs hfs hin)

end UpToDate

/-! ### Building again -/

/-- A workshop that keeps nothing. -/
theorem sound_empty (tools : Toolchain σ) (codes : Bytecode → Prop) (device : σ) :
    Workshop.Sound tools codes { device } :=
  ⟨ReflectionCache.faithful_of_entries_eq_nil rfl, fun _ _ _ hv => by simp at hv⟩

/-- On the files of a source, a request's pipeline can be built with a specification, with what the
system keeps and with nothing that is kept. -/
def Rebuilds (s : MaterialSystem σ) (src : Source) (r : PipelineRequest) (spec : LayoutSpec) :
    Prop :=
  ∃ m config, s.catalog.materials[r.handle.index]? = some m ∧
    s.renderPassConfig r.renderPass = .ok config ∧
    ∀ w, (w = s.workshop ∨ ∃ device, w = { device }) →
      ∃ p w', (m.build s.tools src s.catalog.states r.pass config).run w = (.ok p, w') ∧
        p.spec = spec

/-- What a system that follows edits can rely on, apart from its pipelines. -/
structure Ready (codes : Bytecode → Prop) (src : Source) (s : MaterialSystem σ) : Prop where
  hot        : s.config.hotReload = true
  attributed : s.Attributed
  canonical  : ∀ m ∈ s.catalog.materials, CanonicalFiles m.shaders
  compiles   : s.catalog.Compiles s.tools src codes
  sound      : s.workshop.Sound s.tools codes

namespace Ready

theorem of_forgets (h : s.Ready codes src) (hf : Forgets s s') : s'.Ready codes src := by
  refine ⟨hf.config ▸ h.hot, h.attributed.of_forgets hf, hf.catalog ▸ h.canonical, ?_, ⟨?_, ?_⟩⟩
  · rw [hf.catalog, hf.tools]
    exact h.compiles
  · rw [hf.tools]
    exact hf.faithful _ _ h.sound.faithful
  · rw [hf.tools, hf.layouts]
    exact h.sound.made

theorem edited (h : s.Ready codes src) (hcomp : s.catalog.Compiles s.tools src' codes)
    (path : String) : (s.shaderChanged path).2.Ready codes src' := by
  have h' := h.of_forgets (forgets_shaderChanged s path)
  refine ⟨h'.hot, h'.attributed, h'.canonical, ?_, h'.sound⟩
  rw [(forgets_shaderChanged s path).catalog, (forgets_shaderChanged s path).tools]
  exact hcomp

/-- The pipeline of a request that is up to date can be built again. -/
theorem rebuilds (h : s.Ready codes src) (ha : ToldApart s.tools.reflect codes)
    (hb : s.tools.backend.Steady) (hup : s.UpToDate src r p) : s.Rebuilds src r p.spec := by
  obtain ⟨m, config, pl, hp, hspec, hlayout, device, hmade⟩ := hup
  have hcomp := h.compiles m hp.mem_materials
  -- the backend takes the descriptor with each layout, as it took it with that of the pipeline
  have htake : ∀ layout device', ∃ pipeline, (s.tools.backend.createPipeline
      (pl.descriptor m config layout) device').1 = .ok pipeline := by
    intro layout device'
    have hok := hb.pipeline (pl.descriptor m config p.layout) layout device device'
    rw [hmade] at hok
    exact Result.isOk_iff.1 hok.symm
  refine ⟨m, config, hp.material, hp.resolves, fun w hw => ?_⟩
  rw [← hspec] at hlayout ⊢
  rcases hw with rfl | ⟨device', rfl⟩
  · exact Material.build_of_plan ha hcomp h.sound hp.plan
      (LayoutCache.getOrCreate_known hlayout _) (htake p.layout)
  · obtain ⟨native, device'', hn, hl⟩ := h.sound.made _ _ _ hlayout
    have hok := hb.layout native device'' device'
    rw [hl] at hok
    obtain ⟨layout, hl'⟩ := Result.isOk_iff.1 hok.symm
    exact Material.build_of_plan ha hcomp (sound_empty s.tools codes device') hp.plan
      (LayoutCache.getOrCreate_new rfl hn hl') (htake layout)

/-- What can be built again compiles. -/
theorem compile_of_rebuilds (h : s.Ready codes src) (ha : ToldApart s.tools.reflect codes)
    {spec : LayoutSpec} (hr : s.Rebuilds src r spec) {m : Material} {q : Pass}
    (hsel : s.catalog.select? r = some (m, q)) {t : ShaderReference} (ht : t ∈ q.shaders) :
    ∃ code, s.tools.compile src t.request = .ok code := by
  obtain ⟨m', config, hm, -, hbuild⟩ := hr
  obtain ⟨hm', hq⟩ := Catalog.select?_eq_some.1 hsel
  obtain rfl := Option.some.inj (hm.symm.trans hm')
  obtain ⟨p, w, hrun, -⟩ := hbuild s.workshop (.inl rfl)
  obtain ⟨pl, hplan, -⟩ := Material.plan_of_build ha (h.compiles m' (List.mem_of_getElem? hm))
    h.sound hrun
  obtain rfl := Except.ok.inj (hq.symm.trans (Material.resolvePass_of_plan hplan))
  exact Material.compile_of_plan hplan ht

/-- Nothing can be built again without a file in the footprint of a shader. -/
theorem not_rebuilds_without (h : s.Ready codes (src.without file)) (hc : ByText s.tools.compile)
    (ha : ToldApart s.tools.reflect codes) (hbound : src.Bounded) {spec : LayoutSpec} {m : Material}
    {q : Pass} (hsel : s.catalog.select? r = some (m, q)) {t : ShaderReference}
    (ht : t ∈ q.shaders) {fs : List String} (hfs : Shader.footprint? src t.file = some fs)
    (hin : file ∈ fs) : ¬ s.Rebuilds (src.without file) r spec := by
  intro hr
  obtain ⟨hm, hq⟩ := Catalog.select?_eq_some.1 hsel
  have hcan : Path.normalize t.request.file = .ok t.request.file :=
    h.canonical m (List.mem_of_getElem? hm) t
      (List.mem_flatMap.2 ⟨q, Material.mem_passes_of_resolvePass hq, ht⟩)
  obtain ⟨code, hcode⟩ := h.compile_of_rebuilds ha hr hsel ht
  exact hc.not_compile_without hbound hcan hfs hin hcode

end Ready

/-! ### Serving -/

/-- A pipeline that is built for a request is up to date, and what was up to date stays so. -/
theorem Ready.built (h : s.Ready codes src) (ha : ToldApart s.tools.reflect codes) {m : Material}
    {q : Pass} {config : RenderPassConfig} {w : Workshop σ}
    (hsel : s.catalog.select? r = some (m, q)) (hc : s.renderPassConfig r.renderPass = .ok config)
    (hb : (m.build s.tools src s.catalog.states r.pass config).run s.workshop = (.ok p, w)) :
    w.Sound s.tools codes ∧ s.workshop.layouts.Grows w.layouts ∧
      (s.kept p w).UpToDate src r p := by
  obtain ⟨hm, -⟩ := Catalog.select?_eq_some.1 hsel
  have hcomp := h.compiles m (List.mem_of_getElem? hm)
  obtain ⟨hsound, hgrows⟩ := (Material.keeps_build ha hcomp).after hb h.sound
  obtain ⟨pl, hplan, hspec, hlayout, hmade⟩ := Material.plan_of_build ha hcomp h.sound hb
  exact ⟨hsound, hgrows, m, config, pl, ⟨hm, hc, hplan⟩, hspec, hlayout, hmade⟩

theorem Ready.serve (h : s.Ready codes src) (ha : ToldApart s.tools.reflect codes)
    (r : PipelineRequest) : (s.serve src r).2.Ready codes src := by
  have hatt := h.attributed.serve src r
  have hserve := serving h.attributed.indexed src r
  generalize s.serve src r = a at hserve hatt ⊢
  cases hserve with
  | unselected _ => exact h
  | found _ _ _ => exact h.of_forgets (forgets_looked s _)
  | unknown _ => exact h.of_forgets (forgets_looked s _)
  | failed hsel hc hb =>
      have hm := List.mem_of_getElem? (Catalog.select?_eq_some.1 hsel).1
      have hkeeps := (Material.keeps_build ha (h.compiles _ hm)).after hb h.sound
      exact ⟨h.hot, hatt, h.canonical, h.compiles, hkeeps.1⟩
  | built hsel hc hb _ =>
      exact ⟨h.hot, hatt, h.canonical, h.compiles, (h.built ha hsel hc hb).1⟩

/-- A pipeline that is served is up to date, if it is so when it is kept. -/
theorem Ready.up_to_date_of_serve (h : s.Ready codes src) (ha : ToldApart s.tools.reflect codes)
    (hserve : s.serve src r = (.ok p, s'))
    (hkept : (p.hash.value, p) ∈ s.pipelines.entries → s.UpToDate src r p) :
    s'.UpToDate src r p := by
  have hs := serving h.attributed.indexed src r
  rw [hserve] at hs
  cases hs with
  | @found m q _ k hsel hk hp =>
      have hmem := Table.mem_of_value? hp
      rw [← (h.attributed.entries _ p hmem).1] at hmem
      exact (hkept hmem).of_grows rfl rfl (.refl _)
  | built hsel hc hb _ => exact (h.built ha hsel hc hb).2.2

/-! ### Systems whose pipelines are up to date -/

/-- All pipelines of a system were made of what a request of their key and origin is planned as. -/
structure Fresh (codes : Bytecode → Prop) (src : Source) (s : MaterialSystem σ) : Prop
    extends Ready codes src s where
  current : ∀ k p, (k, p) ∈ s.pipelines.entries → ∃ r, s.catalog.key? r = some p.hash ∧
    s.catalog.origin? r = some p.origin ∧ s.UpToDate src r p

namespace Fresh

theorem of_entries_eq_nil (h : s.Ready codes src) (he : s.pipelines.entries = []) :
    s.Fresh codes src :=
  ⟨h, fun k p hp => by rw [he] at hp; simp at hp⟩

/-- Pipelines stay up to date when other pipelines go and the workshop keeps more. -/
theorem of_subset (h : s.Fresh codes src) (h' : s'.Ready codes src) (ht : s'.tools = s.tools)
    (hc : s'.catalog = s.catalog) (hl : s.workshop.layouts.Grows s'.workshop.layouts)
    (hp : s'.pipelines.entries ⊆ s.pipelines.entries) : s'.Fresh codes src := by
  refine ⟨h', fun k p hmem => ?_⟩
  obtain ⟨r, hkey, horigin, hup⟩ := h.current k p (hp hmem)
  rw [hc]
  exact ⟨r, hkey, horigin, hup.of_grows ht hc hl⟩

theorem of_forgets (h : s.Fresh codes src) (hf : Forgets s s') : s'.Fresh codes src :=
  h.of_subset (h.toReady.of_forgets hf) hf.tools hf.catalog (hf.layouts ▸ .refl _) hf.pipelines

theorem clearCaches (h : s.Fresh codes src) : s.clearCaches.Fresh codes src :=
  .of_entries_eq_nil ⟨h.hot, .of_entries_eq_nil h.attributed.indexed rfl, h.canonical, h.compiles,
    ⟨ReflectionCache.faithful_of_entries_eq_nil rfl,
      fun _ _ _ hv => by simp [MaterialSystem.clearCaches] at hv⟩⟩ rfl

theorem serve (h : s.Fresh codes src) (ha : ToldApart s.tools.reflect codes)
    (r : PipelineRequest) : (s.serve src r).2.Fresh codes src := by
  have hready := h.toReady.serve ha r
  have hserve := serving h.attributed.indexed src r
  generalize s.serve src r = a at hserve hready ⊢
  cases hserve with
  | unselected _ => exact h
  | found _ _ _ => exact h.of_forgets (forgets_looked s _)
  | unknown _ => exact h.of_forgets (forgets_looked s _)
  | @failed m q config k e w hsel hc hb =>
      have hm := List.mem_of_getElem? (Catalog.select?_eq_some.1 hsel).1
      have hkeeps := (Material.keeps_build ha (h.compiles m hm)).after hb h.sound
      exact h.of_subset hready rfl rfl hkeeps.2 (forgets_looked s k).pipelines
  | @built m q config p w hsel hc hb _ =>
      obtain ⟨-, hgrows, hup⟩ := h.built ha hsel hc hb
      refine ⟨hready, fun k p' hp => ?_⟩
      -- an entry of before, or the pipeline that was built
      rcases Table.mem_assign hp with hp | hp
      · obtain ⟨r', hkey, horigin, hup'⟩ := h.current k p' hp
        exact ⟨r', hkey, horigin, hup'.of_grows rfl rfl hgrows⟩
      · obtain ⟨rfl, rfl⟩ := Prod.mk.inj hp
        obtain ⟨hkey, horigin⟩ := build_request h.attributed.indexed hsel hc hb
        exact ⟨r, hkey, horigin, hup⟩

/-- A pipeline that an edit leaves is up to date, if the edit is noted for requests of its key and
origin. -/
theorem up_to_date_of_kept (h : s.Fresh codes src) (hc : ByText s.tools.compile) {path : String}
    (hn : Path.normalize path = .ok file) (he : Source.Edit file src src') {k : UInt64}
    (hp : (k, p) ∈ (s.shaderChanged path).2.pipelines.entries) (hup : s.UpToDate src r p)
    (horigin : s.catalog.origin? r = some p.origin) (hnoted : s.catalog.Noted src file r) :
    (s.shaderChanged path).2.UpToDate src' r p := by
  have hf := forgets_shaderChanged s path
  refine (hup.edited hc h.canonical he hnoted fun m q hsel => ?_).of_grows hf.tools hf.catalog
    (hf.layouts ▸ .refl _)
  rw [Catalog.origin?, hsel] at horigin
  exact not_names_of_kept h.attributed.indexed h.hot hn hp
    (List.mem_of_getElem? (Catalog.select?_eq_some.1 hsel).1)
    (congrArg Origin.material (Option.some.inj horigin))

/-- An edit that is noted for all requests leaves all pipelines up to date. -/
theorem edited (h : s.Fresh codes src) (hc : ByText s.tools.compile) {path : String}
    (hn : Path.normalize path = .ok file) (he : Source.Edit file src src')
    (hnoted : s.catalog.NotedByAll src file) (hcomp : s.catalog.Compiles s.tools src' codes) :
    (s.shaderChanged path).2.Fresh codes src' := by
  have hf := forgets_shaderChanged s path
  refine ⟨h.toReady.edited hcomp path, fun k p hp => ?_⟩
  obtain ⟨r, hkey, horigin, hup⟩ := h.current k p (hf.pipelines hp)
  refine ⟨r, ?_, ?_, h.up_to_date_of_kept hc hn he hp hup horigin (hnoted r)⟩
  · rw [hf.catalog]
    exact hkey
  · rw [hf.catalog]
    exact horigin

end Fresh

/-- In every run of edits that are noted for all requests, all pipelines are up to date. -/
theorem Watched.fresh (hc : ByText tools.compile) (ha : ToldApart tools.reflect codes)
    (h : Watched tools Catalog.NotedByAll codes src s) : s.Fresh codes src ∧ s.tools = tools := by
  induction h with
  | load device config root _ hot hload hcomp =>
      obtain ⟨path, -, hload⟩ := Result.bind_eq_ok.1 hload
      obtain ⟨catalog, hcat, hload⟩ := Result.bind_eq_ok.1 hload
      obtain rfl := Except.ok.inj hload
      have hcan : ∀ m ∈ catalog.materials, CanonicalFiles m.shaders := fun m hm => by
        obtain ⟨ctx, v, hread⟩ := Catalog.read_of_load hcat hm
        exact Material.canonical_of_read hread
      exact ⟨.of_entries_eq_nil ⟨hot, .of_entries_eq_nil (Catalog.indexed_of_load hcat) rfl, hcan,
        hcomp, sound_empty tools codes device⟩ rfl, rfl⟩
  | edit path hn he hnoted hcomp _ ih =>
      obtain ⟨ih, rfl⟩ := ih
      exact ⟨ih.edited hc hn he hnoted hcomp, (forgets_shaderChanged _ path).tools⟩
  | @serve src s r _ ih =>
      obtain ⟨ih, rfl⟩ := ih
      obtain ⟨w, c, e⟩ := serve_frame ih.attributed.indexed src r
      exact ⟨ih.serve ha r, by rw [e]⟩
  | invalidateMaterial id _ ih =>
      exact ⟨ih.1.of_forgets (forgets_invalidateMaterial _ id), ih.2⟩
  | clearCaches _ ih => exact ⟨ih.1.clearCaches, ih.2⟩

/-! ### Further edits -/

/-- All edits of a file are followed, as far as one request goes: when it is served a pipeline of
its own origin after one of them, this can be built again. -/
def Follows (codes : Bytecode → Prop) (src : Source) (path file : String) (r : PipelineRequest)
    (s : MaterialSystem σ) : Prop :=
  ∀ src' p s', Source.Edit file src src' → s.catalog.Compiles s.tools src' codes →
    (s.shaderChanged path).2.serve src' r = (.ok p, s') → s.catalog.origin? r = some p.origin →
    s'.Rebuilds src' r p.spec

section Further

variable {path : String}

/-- Edits that are noted for a request are followed. -/
theorem Fresh.follows (h : s.Fresh codes src) (hc : ByText s.tools.compile)
    (hb : s.tools.backend.Steady) (ha : ToldApart s.tools.reflect codes)
    (hn : Path.normalize path = .ok file) (hnoted : s.catalog.Noted src file r) :
    s.Follows codes src path file r := by
  intro src' p s' he hcomp hserve hown
  have hf := forgets_shaderChanged s path
  have hready := h.toReady.edited hcomp path
  have hup := hready.up_to_date_of_serve (hf.tools ▸ ha) hserve fun hp => by
    obtain ⟨r₀, -, horigin, hup⟩ := h.current _ p (hf.pipelines hp)
    exact h.up_to_date_of_kept hc hn he hp
      (hup.of_origin h.attributed.indexed (hown.trans horigin.symm)) hown hnoted
  have hready' := hready.serve (hf.tools ▸ ha) r
  obtain ⟨w, c, e⟩ := serve_frame hready.attributed.indexed src' r
  rw [hserve] at hready' e
  dsimp only at hready' e
  have htools : s'.tools = s.tools := by rw [e]; exact hf.tools
  exact hready'.rebuilds (htools ▸ ha) (htools ▸ hb) hup

/-- Without a file that is not noted for a request, the request is served as before, and what it is
served cannot be built. -/
theorem Fresh.not_follows (h : s.Fresh codes src) (hc : ByText s.tools.compile)
    (ha : ToldApart s.tools.reflect codes) (hbound : src.Bounded)
    (hn : Path.normalize path = .ok file) (hkey : s.catalog.key? r = some p.hash)
    (horigin : s.catalog.origin? r = some p.origin)
    (hp : s.pipelines.entries.value? p.hash.value = some p)
    (hnoted : ¬ s.catalog.Noted src file r) : ¬ s.Follows codes src path file r := by
  intro hfollows
  have hf := forgets_shaderChanged s path
  unfold Catalog.Noted at hnoted
  push Not at hnoted
  obtain ⟨m, q, hsel, sh, ht, fs, hfs, hin, hm⟩ := hnoted
  have hmem := List.mem_of_getElem? (Catalog.select?_eq_some.1 hsel).1
  have hcomp : s.catalog.Compiles s.tools (src.without file) codes :=
    h.compiles.without hc hbound h.canonical
  have hid : m.id = p.material := by
    rw [Catalog.origin?, hsel] at horigin
    exact congrArg Origin.material (Option.some.inj horigin)
  have hkept := kept_of_not_names h.attributed.indexed h.hot hn hp fun m' hm' hid' => by
    obtain rfl : m' = m := List.inj_on_of_nodup_map h.attributed.indexed.nodup hm' hmem
      (hid'.trans hid.symm)
    exact hm
  have hready := h.toReady.edited hcomp path
  have hfollows' := fun s' h => hfollows (src.without file) p s' (Source.edit_without file hbound)
    hcomp h horigin
  -- of the system that was told nothing else counts
  obtain ⟨htools, hcat⟩ := And.intro hf.tools hf.catalog
  clear hf hfollows horigin
  generalize (s.shaderChanged path).2 = t at htools hcat hkept hready hfollows'
  rw [← hcat] at hkey hsel
  rw [← htools] at hc ha
  have hlooked := hready.of_forgets (forgets_looked t p.hash)
  exact hlooked.not_rebuilds_without hc ha hbound hsel ht hfs hin
    (hfollows' _ (serve_of_entry hkey hkept))

end Further

/-- In every run of edits that are noted for all requests, a request that is served a pipeline of
its own origin is served one that was made of what the request is planned as on the files as they
are by now, and that can be built again from them.  All further edits of a file are followed exactly
when they are noted for the request: when the material names the file, or no shader of the pass has
it in its footprint. -/
theorem followed_iff {t : Translator} (ht : tools.compile = t.compiler)
    (hb : tools.backend.Steady) (ha : ToldApart tools.reflect codes)
    (h : Watched tools Catalog.NotedByAll codes src s)
    (hserve : s.serve src r = (.ok p, s')) (hown : s.catalog.origin? r = some p.origin) :
    s'.UpToDate src r p ∧ s'.Rebuilds src r p.spec ∧
    ∀ path file, Path.normalize path = .ok file →
      (s'.Follows codes src path file r ↔ s'.catalog.Noted src file r) := by
  have hc : ByText tools.compile := ht ▸ t.compiler_byText
  obtain ⟨hfresh, rfl⟩ := h.fresh hc ha
  obtain ⟨hcat, hkey, hentry, -⟩ := hfresh.attributed.of_serve hserve
  obtain ⟨w, c, e⟩ := serve_frame hfresh.attributed.indexed src r
  have hfresh' := hfresh.serve ha r
  rw [hserve] at hfresh' e
  dsimp only at hfresh' e
  have htools : s'.tools = s.tools := by rw [e]
  rw [← htools] at hc hb ha
  rw [← hcat] at hkey hown
  -- the pipeline is kept now, and was made for a request of the same origin
  obtain ⟨r₀, -, horigin₀, hup₀⟩ := hfresh'.current _ p (Table.mem_of_value? hentry)
  have hup := hup₀.of_origin hfresh'.attributed.indexed (hown.trans horigin₀.symm)
  refine ⟨hup, hfresh'.rebuilds ha hb hup, fun path file hn =>
    ⟨fun hfollows => ?_, fun hnoted => hfresh'.follows hc hb ha hn hnoted⟩⟩
  by_contra hnoted
  exact hfresh'.not_follows hc ha h.bounded hn hkey hown hentry hnoted hfollows

end MaterialSystem

end Following

/-! ### A file that is put in and not named -/

namespace SharedInclude

open MaterialSystem Spirv

/-- One material, whose shader file puts in another one. -/
def rootText : String :=
  "\x7b\"materials\":[\x7b\"id\":\"m1\",\"pass\":\"forward\",\"shaders\":\x7b\"vertex\":" ++
    "\x7b\"file\":\"lit.wgsl\",\"profile\":\"vs_6_0\"\x7d\x7d\x7d]," ++
  "\"renderPasses\":[\x7b\"name\":\"forward\"\x7d]\x7d"

/-- The shaders of the files, before and after an edit. -/
inductive Variant where
  | main | other
  deriving DecidableEq

namespace Variant

/-- The name of the entry point. -/
def name : Variant → String
  | main  => "main"
  | other => "other"

def all : List Variant := [main, other]

theorem mem_all (v : Variant) : v ∈ all := by cases v <;> decide

/-- The entry point, in a line. -/
def line (v : Variant) : String :=
  "@vertex fn " ++ v.name ++ "() -> @builtin(position) vec4<f32> \x7b return vec4<f32>(); \x7d"

def text (v : Variant) : String := Text.unlines [v.line]

/-- The entry point in SPIR-V. -/
def code (v : Variant) : Spirv.Module where
  version := 0x00010300
  generator := 28
  bound := 12
  instructions := [
    ⟨Op.capability, [1]⟩, ⟨Op.importInstructions, 1 :: literal "GLSL.std.450"⟩,
    ⟨Op.memoryModel, [0, 1]⟩, ⟨Op.entryPoint, 0 :: 8 :: literal v.name ++ [6]⟩,
    ⟨Op.name, 8 :: literal v.name⟩, ⟨Op.decorate, [6, 11, 0]⟩, ⟨Op.typeVoid, [2]⟩,
    ⟨Op.typeFloat, [4, 32]⟩, ⟨Op.typeVector, [3, 4, 4]⟩, ⟨Op.typePointer, [7, 3, 3]⟩,
    ⟨Op.declareVariable, [7, 6, 3]⟩, ⟨Op.typeFunction, [9, 2]⟩, ⟨Op.constantNull, [3, 10]⟩,
    ⟨Op.function, [2, 8, 0, 9]⟩, ⟨Op.label, [5]⟩, ⟨Op.branch, [11]⟩, ⟨Op.label, [11]⟩,
    ⟨Op.store, [6, 10]⟩, ⟨Op.returnVoid, []⟩, ⟨Op.functionEnd, []⟩]

end Variant

def memory : MemorySource :=
  ((({} : MemorySource).insertText "root.json" rootText).insertText "lit.wgsl"
    "#include \"common.wgsl\"\n").insertText "common.wgsl" Variant.main.text

def files : Source := memory.toSource

/-- The files after an edit of the one that is put in. -/
def commonEdited : Source := (memory.insertText "common.wgsl" Variant.other.text).toSource

/-- The files after an edit of the one that is named. -/
def litEdited : Source := (memory.insertText "lit.wgsl" Variant.main.text).toSource

/-- A translator of these shaders. -/
def translator : Translator where
  Module          := Variant
  Info            := Unit
  readWgsl text   :=
    ((Variant.all.find? fun v => v.line ∈ Text.lines text).map .ok).getD (.error "no such shader")
  readGlsl _ _ _  := .error "no such shader"
  readSpirv bytes :=
    ((Variant.all.find? fun v => v.code.bytes = bytes).map .ok).getD (.error "no such module")
  validate _      := .ok ()
  entries v       := [⟨v.name, .vertex⟩]
  globals _       := []
  uses _ _ _      := false
  write _ v _ _   := .ok v.code.words

def tools : Toolchain Counts where
  compile := translator.compiler
  reflect := translator.reflector
  backend := .simulated

/-- Code of one of the shaders. -/
def Known (code : Bytecode) : Prop := ∃ v : Variant, code.bytes = v.code.bytes

theorem known_of_compile {src : Source} {r : CompileRequest} {code : Bytecode}
    (h : tools.compile src r = .ok code) : Known code := by
  obtain ⟨_, _, v, _, words, -, -, -, -, -, hwords, rfl⟩ :=
    Shader.compile_eq_ok.1 (Translator.compiler_eq_ok.1 h)
  obtain rfl := Except.ok.inj hwords
  exact ⟨v, rfl⟩

theorem reflect_known {code : Bytecode} (h : Known code) : tools.reflect code = .ok [] := by
  obtain ⟨v, hbytes⟩ := h
  obtain ⟨v', hfind⟩ : ∃ v', Variant.all.find? (fun v => v.code.bytes = code.bytes) = some v' := by
    rw [← Option.isSome_iff_exists, List.find?_isSome]
    exact ⟨v, v.mem_all, decide_eq_true hbytes.symm⟩
  have hread : translator.readSpirv code.bytes = .ok v' := by
    simp only [translator, hfind, Option.map_some, Option.getD_some]
  exact Translator.reflector_eq_ok hread rfl

theorem toldApart_known : ToldApart tools.reflect Known := by
  intro a b ha hb _
  rw [reflect_known ha, reflect_known hb]

def request : PipelineRequest := ⟨⟨0⟩, some "forward", "forward"⟩

/-- A system that has served the request and was told of an edit. -/
def told (s : MaterialSystem Counts) (path : String) : MaterialSystem Counts :=
  ((s.serve files request).2.shaderChanged path).2

/-- Whether the pipeline of the request can be built when nothing is kept. -/
def builds (s : MaterialSystem Counts) (src : Source) : Bool :=
  match s.catalog.materials[0]?, s.renderPassConfig "forward" with
  | some m, .ok config =>
    ((m.build s.tools src s.catalog.states request.pass config).run { device := {} }).1.isOk
  | _, _ => false

theorem builds_of_rebuilds {s : MaterialSystem Counts} {src : Source} {spec : LayoutSpec}
    (h : s.Rebuilds src request spec) : builds s src = true := by
  obtain ⟨m, config, hm, hc, hbuild⟩ := h
  obtain ⟨p, w, hrun, -⟩ := hbuild { device := {} } (.inr ⟨{}, rfl⟩)
  have hm' : s.catalog.materials[0]? = some m := hm
  have hc' : s.renderPassConfig "forward" = .ok config := hc
  unfold builds
  simp only [hm', hc', hrun]
  rfl

/-- The edit of the one file is not followed, and that of the other is. -/
def followsOne (s : MaterialSystem Counts) : Bool :=
  let s₁ := (told s "common.wgsl").serve commonEdited request
  let s₂ := (told s "lit.wgsl").serve litEdited request
  (s₁.1.isOk && !builds s₁.2 commonEdited) &&
    (s₂.1.isOk && s₂.1.toOption.map (·.origin) = (told s "lit.wgsl").catalog.origin? request &&
      (s.serve files request).2.catalog.materials.all fun m => m.shaders.any (·.file = "lit.wgsl"))

set_option maxRecDepth 100000 in
theorem exists_followsOne :
    ∃ s, MaterialSystem.load tools {} {} files "root.json" = .ok s ∧ followsOne s = true := by
  have h : (match MaterialSystem.load tools {} {} files "root.json" with
      | .ok s    => followsOne s
      | .error _ => false) = true := by decide +kernel
  split at h
  · next s hload => exact ⟨s, hload, h⟩
  · cases h

theorem normalize_common : Path.normalize "common.wgsl" = .ok "common.wgsl" := by decide +kernel

theorem normalize_lit : Path.normalize "lit.wgsl" = .ok "lit.wgsl" := by decide +kernel

theorem watched_served {edits : Catalog → Source → String → Prop} {s : MaterialSystem Counts}
    (h : MaterialSystem.load tools {} {} files "root.json" = .ok s) :
    Watched tools edits Known files (s.serve files request).2 :=
  .serve request (.load {} {} "root.json" (MemorySource.bounded memory) rfl h
    fun _ _ _ _ _ h => known_of_compile h)

/-- Not every pipeline that is served can be built again. -/
theorem outdated_served : ¬ ∀ src s, Watched tools (fun _ _ _ => True) Known src s →
    ∀ r p s', s.serve src r = (.ok p, s') → s'.Rebuilds src r p.spec := by
  intro hall
  obtain ⟨s, hload, h⟩ := exists_followsOne
  obtain ⟨h, -⟩ := Bool.and_eq_true_iff.1 h
  obtain ⟨hok, hbuilds⟩ := Bool.and_eq_true_iff.1 h
  have hwatched : Watched tools (fun _ _ _ => True) Known commonEdited
      (told s "common.wgsl") :=
    .edit "common.wgsl" normalize_common (memory.edit_insert normalize_common _) trivial
      (fun _ _ _ _ _ h => known_of_compile h) (watched_served hload)
  obtain ⟨p, hp⟩ := Result.isOk_iff.1 hok
  have hserve : (told s "common.wgsl").serve commonEdited request =
      (.ok p, ((told s "common.wgsl").serve commonEdited request).2) := Prod.ext hp rfl
  have hrebuilds := hall commonEdited _ hwatched request p _ hserve
  rw [builds_of_rebuilds hrebuilds] at hbuilds
  cases hbuilds

/-- A run with an edit of the file that the material names. -/
theorem followed_iff_of_named : ∃ src s p s',
    Watched tools Catalog.NotedByAll Known src s ∧
    s.serve src request = (.ok p, s') ∧ s'.Rebuilds src request p.spec ∧
    ∀ path file, Path.normalize path = .ok file →
      (s'.Follows Known src path file request ↔ s'.catalog.Noted src file request) := by
  obtain ⟨s, hload, h⟩ := exists_followsOne
  obtain ⟨-, h⟩ := Bool.and_eq_true_iff.1 h
  simp only [Bool.and_eq_true, decide_eq_true_eq] at h
  obtain ⟨⟨hok, hown⟩, hnames⟩ := h
  have hnoted : (s.serve files request).2.catalog.NotedByAll files "lit.wgsl" :=
    fun r m q hsel _ _ _ _ _ => by
      have hm := List.all_eq_true.1 hnames m
        (List.mem_of_getElem? (Catalog.select?_eq_some.1 hsel).1)
      obtain ⟨t, ht, hfile⟩ := List.any_eq_true.1 hm
      exact ⟨t, ht, of_decide_eq_true hfile⟩
  have hwatched : Watched tools Catalog.NotedByAll Known litEdited (told s "lit.wgsl") :=
    .edit "lit.wgsl" normalize_lit (memory.edit_insert normalize_lit _) hnoted
      (fun _ _ _ _ _ h => known_of_compile h) (watched_served hload)
  obtain ⟨p, hp⟩ := Result.isOk_iff.1 hok
  have hserve : (told s "lit.wgsl").serve litEdited request =
      (.ok p, ((told s "lit.wgsl").serve litEdited request).2) := Prod.ext hp rfl
  rw [hp] at hown
  have hall := followed_iff (t := translator) rfl Backend.simulated_steady toldApart_known
    hwatched hserve hown.symm
  exact ⟨litEdited, _, p, _, hwatched, hserve, hall.2⟩

end SharedInclude

end RenderMaterials
