import RenderMaterials.Proofs.Pipeline.Building
import RenderMaterials.Proofs.System.Catalog
import RenderMaterials.Source.Memory
import RenderMaterials.System.Basic

/-!
# Material systems — whose pipeline is served

A request selects a pass of a material, and its pipeline is kept under a key.  The pipeline's origin
is the material, the pass and the render pass that it was made for.  Requests of different origins
may have one key; the cache compares origins when a pipeline is stored, and not when one is found.

* `Reachable.attributed`: in every run, what is kept under a key was made for a request of this key.
* `own_pipelines_iff`: all requests of a key are served pipelines of their own origin exactly when
  they have one origin; a key that two origins share is never reported.
* `SharedKey.other_origin_served`: two materials, told apart by nothing but their ids and the ids of
  their shaders, whose requests have one key.
-/

namespace RenderMaterials

/-- What a pipeline is asked for by. -/
structure PipelineRequest where
  handle     : MaterialHandle
  pass       : Option String
  renderPass : String
  deriving DecidableEq, Repr

/-- What a pipeline is made for. -/
structure Origin where
  material   : String
  pass?      : Option String
  renderPass : String
  deriving DecidableEq, Repr

/-- What a pipeline was made for. -/
def CompiledPipeline.origin (p : CompiledPipeline) : Origin := ⟨p.material, p.pass?, p.renderPass⟩

/-! ### Requests -/

namespace Catalog

/-- The material of a request and the pass that it selects. -/
def select? (c : Catalog) (r : PipelineRequest) : Option (Material × Pass) :=
  c.materials[r.handle.index]?.bind fun m => (m.resolvePass r.pass).toOption.map (m, ·)

/-- The origin of a request. -/
def origin? (c : Catalog) (r : PipelineRequest) : Option Origin :=
  (c.select? r).map fun s => ⟨s.1.id, s.2.name?, r.renderPass⟩

/-- The key of a request. -/
def key? (c : Catalog) (r : PipelineRequest) : Option PipelineHash :=
  (c.select? r).map fun s => PipelineHash.ofPass s.1.id s.2 r.renderPass

/-- All requests of a key have one origin. -/
def OneOrigin (c : Catalog) (k : PipelineHash) : Prop :=
  ∀ r₁ r₂, c.key? r₁ = some k → c.key? r₂ = some k → c.origin? r₁ = c.origin? r₂

theorem select?_eq_some {c : Catalog} {r : PipelineRequest} {m : Material} {q : Pass} :
    c.select? r = some (m, q) ↔
      c.materials[r.handle.index]? = some m ∧ m.resolvePass r.pass = .ok q := by
  unfold select?
  rw [Option.bind_eq_some_iff]
  constructor
  · rintro ⟨n, hn, h⟩
    obtain ⟨q', hq, e⟩ := Option.map_eq_some_iff.1 h
    obtain ⟨rfl, rfl⟩ := Prod.mk.inj e
    exact ⟨hn, Result.toOption_eq_some.1 hq⟩
  · rintro ⟨hm, hq⟩
    exact ⟨m, hm, by rw [hq]; rfl⟩

end Catalog

namespace MaterialSystem

variable {σ : Type} {tools : Toolchain σ} {s s' : MaterialSystem σ} {src : Source}
  {r : PipelineRequest} {m : Material} {q : Pass} {p : CompiledPipeline}

/-- Serves a request. -/
def serve (s : MaterialSystem σ) (src : Source) (r : PipelineRequest) :
    Except MaterialError CompiledPipeline × MaterialSystem σ :=
  s.pipelineFor src r.handle r.pass r.renderPass

/-- A system that has counted a look-up in its pipelines. -/
def looked (s : MaterialSystem σ) (k : PipelineHash) : MaterialSystem σ :=
  { s with pipelines := (s.pipelines.get k).2 }

/-- A request that selects no pass changes nothing. -/
theorem serve_of_select_none (h : s.catalog.select? r = none) :
    ∃ e, s.serve src r = (.error e, s) := by
  unfold serve pipelineFor material?
  cases hm : s.catalog.materials[r.handle.index]? with
  | none => exact ⟨_, rfl⟩
  | some m =>
      cases hq : m.resolvePass r.pass with
      | ok q => rw [Catalog.select?_eq_some.2 ⟨hm, hq⟩] at h; cases h
      | error e =>
          have hh : requestHash m r.pass r.renderPass = .error e := by
            simp only [requestHash, PipelineHash.ofRequest, hq]
            rfl
          exact ⟨e, by simp only [hh]⟩

theorem serve_of_select (h : s.catalog.select? r = some (m, q)) :
    s.serve src r = match s.pipelines.get (PipelineHash.ofPass m.id q r.renderPass) with
      | (some p, pipelines) => (.ok p, { s with pipelines })
      | (none, pipelines)   =>
        { s with pipelines }.buildPipeline src m r.pass r.renderPass := by
  obtain ⟨hm, hq⟩ := Catalog.select?_eq_some.1 h
  have hh : requestHash m r.pass r.renderPass = .ok (PipelineHash.ofPass m.id q r.renderPass) := by
    simp only [requestHash, PipelineHash.ofRequest, hq]
    rw [if_pos (PipelineHash.ofPass_isValid m.id q r.renderPass)]
  unfold serve pipelineFor material?
  rw [hm]
  dsimp only
  generalize requestHash m r.pass r.renderPass = hash at hh
  subst hh
  rfl

/-- A pipeline that is found is served. -/
theorem serve_of_found (h : s.catalog.select? r = some (m, q))
    (hp : s.pipelines.entries.value? (PipelineHash.ofPass m.id q r.renderPass).value = some p) :
    s.serve src r = (.ok p, s.looked (PipelineHash.ofPass m.id q r.renderPass)) := by
  rw [serve_of_select h]
  simp only [looked, PipelineCache.get, hp]

/-- A pipeline that is not found is built. -/
theorem serve_of_not_found (h : s.catalog.select? r = some (m, q))
    (hp : s.pipelines.entries.value? (PipelineHash.ofPass m.id q r.renderPass).value = none) :
    s.serve src r = (s.looked (PipelineHash.ofPass m.id q r.renderPass)).buildPipeline src m r.pass
      r.renderPass := by
  rw [serve_of_select h]
  simp only [looked, PipelineCache.get, hp]

@[simp] theorem looked_entries (s : MaterialSystem σ) (k : PipelineHash) :
    (s.looked k).pipelines.entries = s.pipelines.entries := by
  simp only [looked, PipelineCache.get]
  split <;> rfl

/-! ### What is built for a request -/

/-- What a build of a request is: the pipeline has the key and the origin of the request. -/
theorem build_request {w w' : Workshop σ} {config : RenderPassConfig} (hs : s.catalog.Indexed)
    (h : s.catalog.select? r = some (m, q)) (hc : s.renderPassConfig r.renderPass = .ok config)
    (hb : (m.build s.tools src s.catalog.states r.pass config).run w = (.ok p, w')) :
    s.catalog.key? r = some p.hash ∧ s.catalog.origin? r = some p.origin := by
  obtain ⟨hm, hq⟩ := Catalog.select?_eq_some.1 h
  obtain ⟨s', l, stages, w₁, w₂, vf, hset, -, -, -, -, -, hhash, hmat, hpass, hrp⟩ :=
    Material.build_eq_ok.1 hb
  have hname : config.name = r.renderPass := by
    unfold renderPassConfig at hc
    split at hc
    · cases hc
    · next rp hfound =>
        obtain ⟨target, -, hc⟩ := Result.bind_eq_ok.1 hc
        obtain rfl := Except.ok.inj hc
        exact hs.renderPass_name hfound
  obtain rfl := Except.ok.inj (hq.symm.trans (Material.resolvePass_of_setting hset))
  refine ⟨?_, ?_⟩
  · rw [Catalog.key?, h, hhash, PipelineHash.ofRequest, hq, hname]
    rfl
  · rw [Catalog.origin?, h, CompiledPipeline.origin, hmat, hpass, hrp, hname]
    rfl

/-- Nothing is in the way of a pipeline whose key was not found. -/
theorem store_of_not_found {c : PipelineCache} (hv : p.hash.isValid = true)
    (hp : c.entries.value? p.hash.value = none) :
    c.store p = (.ok p, { c with entries := c.entries.assign p.hash.value p }) := by
  simp only [PipelineCache.store, hv, hp]
  rfl

/-- A system that has built a pipeline and keeps it. -/
def kept (s : MaterialSystem σ) (p : CompiledPipeline) (w : Workshop σ) : MaterialSystem σ :=
  { s with
    workshop  := w
    pipelines := { (s.pipelines.get p.hash).2 with
      entries := s.pipelines.entries.assign p.hash.value p } }

/-- What becomes of a request. -/
inductive Serving (s : MaterialSystem σ) (src : Source) (r : PipelineRequest) :
    Except MaterialError CompiledPipeline × MaterialSystem σ → Prop
  /-- It selects no pass. -/
  | unselected {e : MaterialError} : s.catalog.select? r = none → Serving s src r (.error e, s)
  /-- Its pipeline is there. -/
  | found {m : Material} {q : Pass} {p : CompiledPipeline} {k : PipelineHash} :
      s.catalog.select? r = some (m, q) → k = PipelineHash.ofPass m.id q r.renderPass →
      s.pipelines.entries.value? k.value = some p → Serving s src r (.ok p, s.looked k)
  /-- There is no such render pass. -/
  | unknown {k : PipelineHash} {e : MaterialError} :
      s.renderPassConfig r.renderPass = .error e → Serving s src r (.error e, s.looked k)
  /-- The build fails. -/
  | failed {m : Material} {q : Pass} {config : RenderPassConfig} {k : PipelineHash}
      {e : MaterialError} {w : Workshop σ} :
      s.catalog.select? r = some (m, q) → s.renderPassConfig r.renderPass = .ok config →
      (m.build s.tools src s.catalog.states r.pass config).run s.workshop = (.error e, w) →
      Serving s src r (.error e, { s.looked k with workshop := w })
  /-- The build succeeds. -/
  | built {m : Material} {q : Pass} {config : RenderPassConfig} {p : CompiledPipeline}
      {w : Workshop σ} :
      s.catalog.select? r = some (m, q) → s.renderPassConfig r.renderPass = .ok config →
      (m.build s.tools src s.catalog.states r.pass config).run s.workshop = (.ok p, w) →
      s.pipelines.entries.value? p.hash.value = none → Serving s src r (.ok p, s.kept p w)

theorem serving (hs : s.catalog.Indexed) (src : Source) (r : PipelineRequest) :
    Serving s src r (s.serve src r) := by
  cases hsel : s.catalog.select? r with
  | none =>
      obtain ⟨e, h⟩ : ∃ e, s.serve src r = (.error e, s) := serve_of_select_none hsel
      rw [h]
      exact .unselected hsel
  | some mq =>
      obtain ⟨m, q⟩ := mq
      cases hp : s.pipelines.entries.value? (PipelineHash.ofPass m.id q r.renderPass).value with
      | some p =>
          rw [serve_of_found hsel hp]
          exact .found hsel rfl hp
      | none =>
          rw [serve_of_not_found hsel hp]
          generalize hk : PipelineHash.ofPass m.id q r.renderPass = k at hp
          cases hc : s.renderPassConfig r.renderPass with
          | error e =>
              have hc' : (s.looked k).renderPassConfig r.renderPass = .error e := hc
              simp only [buildPipeline, hc']
              exact .unknown hc
          | ok config =>
              have hc' : (s.looked k).renderPassConfig r.renderPass = .ok config := hc
              rcases hb : (m.build s.tools src s.catalog.states r.pass config).run s.workshop with
                ⟨e | p, w⟩
              · have hb' : (m.build (s.looked k).tools src (s.looked k).catalog.states r.pass
                    config).run (s.looked k).workshop = (.error e, w) := hb
                simp only [buildPipeline, hc', hb']
                exact .failed hsel hc hb
              · have hb' : (m.build (s.looked k).tools src (s.looked k).catalog.states r.pass
                    config).run (s.looked k).workshop = (.ok p, w) := hb
                -- the key that was looked for is that of the pipeline, and has no entry
                obtain rfl : k = p.hash := by
                  have hkey := (build_request hs hsel hc hb).1
                  rw [Catalog.key?, hsel] at hkey
                  exact hk.symm.trans (Option.some.inj hkey)
                have hv : p.hash.isValid = true := by
                  rw [← hk]
                  exact PipelineHash.ofPass_isValid m.id q r.renderPass
                have hp' : (s.looked p.hash).pipelines.entries.value? p.hash.value = none := by
                  rw [looked_entries]; exact hp
                simp only [buildPipeline, hc', hb', store_of_not_found hv hp', looked_entries]
                exact .built hsel hc hb hp

/-- A request changes nothing but what is kept. -/
theorem serve_frame (hs : s.catalog.Indexed) (src : Source) (r : PipelineRequest) :
    ∃ workshop pipelines, (s.serve src r).2 = { s with workshop, pipelines } := by
  have h := serving hs src r
  generalize s.serve src r = a at h ⊢
  cases h with
  | unselected _ => exact ⟨s.workshop, s.pipelines, rfl⟩
  | found _ _ _ => exact ⟨s.workshop, _, rfl⟩
  | unknown _ => exact ⟨s.workshop, _, rfl⟩
  | failed _ _ _ => exact ⟨_, _, rfl⟩
  | built _ _ _ _ => exact ⟨_, _, rfl⟩

/-! ### What forgetting leaves alone -/

/-- A system that forgot some of what it built, and nothing else. -/
structure Forgets (s s' : MaterialSystem σ) : Prop where
  tools     : s'.tools = s.tools
  config    : s'.config = s.config
  root      : s'.root = s.root
  catalog   : s'.catalog = s.catalog
  layouts   : s'.workshop.layouts = s.workshop.layouts
  faithful  : ∀ reflect codes, s.workshop.reflections.Faithful reflect codes →
    s'.workshop.reflections.Faithful reflect codes
  pipelines : s'.pipelines.entries ⊆ s.pipelines.entries

theorem Forgets.refl (s : MaterialSystem σ) : Forgets s s :=
  ⟨rfl, rfl, rfl, rfl, rfl, fun _ _ => id, List.Subset.refl _⟩

theorem Forgets.trans {s₁ s₂ : MaterialSystem σ} (h : Forgets s s₁) (h' : Forgets s₁ s₂) :
    Forgets s s₂ :=
  ⟨h'.tools.trans h.tools, h'.config.trans h.config, h'.root.trans h.root,
    h'.catalog.trans h.catalog, h'.layouts.trans h.layouts,
    fun reflect codes hf => h'.faithful reflect codes (h.faithful reflect codes hf),
    List.Subset.trans h'.pipelines h.pipelines⟩

theorem forgets_looked (s : MaterialSystem σ) (k : PipelineHash) : Forgets s (s.looked k) :=
  ⟨rfl, rfl, rfl, rfl, rfl, fun _ _ => id, by rw [looked_entries]; exact List.Subset.refl _⟩

theorem invalidate_subset (c : PipelineCache) (id : String) :
    (c.invalidate id).2.entries ⊆ c.entries := List.filter_subset_self _

theorem forgets_invalidateMaterial (s : MaterialSystem σ) (id : String) :
    Forgets s (s.invalidateMaterial id).2 :=
  ⟨rfl, rfl, rfl, rfl, rfl, fun _ _ hf => hf, invalidate_subset s.pipelines id⟩

theorem forgets_forgetUser (file : String) (s : MaterialSystem σ) (id : String) :
    Forgets s (forgetUser file s id) := by
  refine ⟨rfl, rfl, rfl, rfl, rfl, fun reflect codes hf => ?_, invalidate_subset s.pipelines id⟩
  unfold forgetUser forgetShaders
  dsimp only
  split
  · generalize List.filter _ _ = shaders
    generalize s.workshop.reflections = c at hf
    induction shaders generalizing c with
    | nil => exact hf
    | cons r shaders ih => exact ih _ (hf.invalidate r.identity)
  · exact hf

theorem forgets_foldl_forgetUser (file : String) (ids : List String) (s : MaterialSystem σ) :
    Forgets s (ids.foldl (forgetUser file) s) := by
  induction ids generalizing s with
  | nil => exact .refl s
  | cons id ids ih => exact (forgets_forgetUser file s id).trans (ih _)

theorem forgets_shaderChanged (s : MaterialSystem σ) (file : String) :
    Forgets s (s.shaderChanged file).2 := by
  unfold shaderChanged
  split
  · exact .refl s
  · split
    · exact .refl s
    · exact forgets_foldl_forgetUser _ _ s

/-! ### Runs -/

/-- A system that was loaded, and what operations in any order make of it.  Each operation finds the
files as they are at that moment. -/
inductive Reachable (tools : Toolchain σ) : MaterialSystem σ → Prop
  | load {s : MaterialSystem σ} (device : σ) (config : SystemConfig) (src : Source)
      (root : String) : load tools device config src root = .ok s → Reachable tools s
  | serve {s : MaterialSystem σ} (src : Source) (r : PipelineRequest) :
      Reachable tools s → Reachable tools (s.serve src r).2
  | shaderChanged {s : MaterialSystem σ} (file : String) :
      Reachable tools s → Reachable tools (s.shaderChanged file).2
  | invalidateMaterial {s : MaterialSystem σ} (id : String) :
      Reachable tools s → Reachable tools (s.invalidateMaterial id).2
  | clearCaches {s : MaterialSystem σ} : Reachable tools s → Reachable tools s.clearCaches
  | reload {s : MaterialSystem σ} (src : Source) :
      Reachable tools s → Reachable tools (s.reload src).2

/-- What is kept under a key was made for a request of this key. -/
structure Attributed (s : MaterialSystem σ) : Prop where
  indexed : s.catalog.Indexed
  entries : ∀ k p, (k, p) ∈ s.pipelines.entries → p.hash.value = k ∧
    ∃ r, s.catalog.key? r = some p.hash ∧ s.catalog.origin? r = some p.origin

theorem Attributed.of_forgets (h : s.Attributed) (hf : Forgets s s') : s'.Attributed := by
  refine ⟨hf.catalog ▸ h.indexed, fun k p hp => ?_⟩
  rw [hf.catalog]
  exact h.entries k p (hf.pipelines hp)

theorem Attributed.of_entries_eq_nil (hs : s.catalog.Indexed) (h : s.pipelines.entries = []) :
    s.Attributed := by
  refine ⟨hs, fun k p hp => ?_⟩
  rw [h] at hp
  simp at hp

theorem Attributed.serve (h : s.Attributed) (src : Source) (r : PipelineRequest) :
    (s.serve src r).2.Attributed := by
  have hserve := serving h.indexed src r
  generalize s.serve src r = a at hserve ⊢
  cases hserve with
  | unselected _ => exact h
  | found _ _ _ => exact h.of_forgets (forgets_looked s _)
  | unknown _ => exact h.of_forgets (forgets_looked s _)
  | @failed _ _ _ k =>
      have hl := h.of_forgets (forgets_looked s k)
      exact ⟨hl.indexed, hl.entries⟩
  | built hsel hc hb _ =>
      refine ⟨h.indexed, fun k p' hp => ?_⟩
      -- an entry of before, or the pipeline that was built
      rcases Table.mem_assign hp with hp | hp
      · exact h.entries k p' hp
      · obtain ⟨rfl, rfl⟩ := Prod.mk.inj hp
        exact ⟨rfl, r, build_request h.indexed hsel hc hb⟩

/-- In every run, what is kept under a key was made for a request of this key. -/
theorem Reachable.attributed (h : Reachable tools s) : s.Attributed := by
  induction h with
  | load device config src root h =>
      obtain ⟨path, -, h⟩ := Result.bind_eq_ok.1 h
      obtain ⟨catalog, hc, h⟩ := Result.bind_eq_ok.1 h
      obtain rfl := Except.ok.inj h
      exact .of_entries_eq_nil (Catalog.indexed_of_load hc) rfl
  | serve src r _ ih => exact ih.serve src r
  | shaderChanged file _ ih => exact ih.of_forgets (forgets_shaderChanged _ file)
  | invalidateMaterial id _ ih => exact ih.of_forgets (forgets_invalidateMaterial _ id)
  | clearCaches _ ih => exact .of_entries_eq_nil ih.indexed rfl
  | @reload s src _ ih =>
      unfold MaterialSystem.reload
      split
      · next catalog hc => exact .of_entries_eq_nil (Catalog.indexed_of_load hc) rfl
      · exact ih

/-! ### Origins -/

/-- All requests of a key are served pipelines of their own origin. -/
def OwnPipelines (s : MaterialSystem σ) (k : PipelineHash) : Prop :=
  ∀ src r p s', s.catalog.key? r = some k → s.serve src r = (.ok p, s') →
    s.catalog.origin? r = some p.origin

/-- A pipeline that is served has the key of the request, is an earlier one of this key or made for
the request, and is kept. -/
theorem Attributed.of_serve (h : s.Attributed) (hserve : s.serve src r = (.ok p, s')) :
    s'.catalog = s.catalog ∧ s.catalog.key? r = some p.hash ∧
      s'.pipelines.entries.value? p.hash.value = some p ∧
      ∃ r₀, s.catalog.key? r₀ = some p.hash ∧ s.catalog.origin? r₀ = some p.origin := by
  have hs := serving h.indexed src r
  rw [hserve] at hs
  cases hs with
  | @found m q _ k hsel hk hp =>
      obtain ⟨hvalue, hr₀⟩ := h.entries k.value p (Table.mem_of_value? hp)
      obtain rfl : p.hash = k := by
        cases hp' : p.hash
        rw [hp'] at hvalue
        exact congrArg PipelineHash.mk hvalue
      refine ⟨rfl, ?_, by rw [looked_entries]; exact hp, hr₀⟩
      rw [Catalog.key?, hsel, hk]
      rfl
  | built hsel hc hb _ =>
      have hr := build_request h.indexed hsel hc hb
      exact ⟨rfl, hr.1, by simp [kept], r, hr⟩

/-- A request whose key has an entry is served that entry, whatever it was made for. -/
theorem serve_of_entry {k : PipelineHash} (hk : s.catalog.key? r = some k)
    (hp : s.pipelines.entries.value? k.value = some p) :
    s.serve src r = (.ok p, s.looked k) := by
  obtain ⟨⟨m, q⟩, hsel, rfl⟩ := Option.map_eq_some_iff.1 hk
  exact serve_of_found hsel hp

/-- Requests are served pipelines of their own origin exactly as far as keys tell origins apart.  In
every run, the requests of a key with one origin get pipelines of this origin; once a pipeline is
kept under a key, all requests of the key do so only if they have one origin; and a request whose
pipeline can be built is served, so that a shared key is never reported. -/
theorem own_pipelines_iff (h : Reachable tools s) :
    (∀ k, s.catalog.OneOrigin k → s.OwnPipelines k) ∧
    (∀ src r p s', s.serve src r = (.ok p, s') →
      (s'.OwnPipelines p.hash ↔ s'.catalog.OneOrigin p.hash)) ∧
    ∀ src r m q config p w, s.catalog.select? r = some (m, q) →
      s.renderPassConfig r.renderPass = .ok config →
      (m.build s.tools src s.catalog.states r.pass config).run s.workshop = (.ok p, w) →
      ∃ p' s', s.serve src r = (.ok p', s') := by
  have own : ∀ {t : MaterialSystem σ}, t.Attributed → ∀ k, t.catalog.OneOrigin k →
      t.OwnPipelines k := fun ht k hone src r p s' hk hserve => by
    obtain ⟨-, hkey, -, r₀, hk₀, ho₀⟩ := ht.of_serve hserve
    obtain rfl := Option.some.inj (hkey.symm.trans hk)
    exact (hone r r₀ hkey hk₀).trans ho₀
  refine ⟨own h.attributed, fun src r p s' hserve => ⟨fun hown r₁ r₂ h₁ h₂ => ?_, fun hone => ?_⟩,
    fun src r m q config p w hsel hc hb => ?_⟩
  · -- both requests are served the pipeline that was kept
    obtain ⟨-, -, hp, -⟩ := h.attributed.of_serve hserve
    have o₁ := hown src r₁ p _ h₁ (serve_of_entry h₁ hp)
    have o₂ := hown src r₂ p _ h₂ (serve_of_entry h₂ hp)
    exact o₁.trans o₂.symm
  · -- what is kept was made for a request of this key, and all of these have one origin
    have hs' : s'.Attributed := by
      have := h.attributed.serve src r
      rwa [hserve] at this
    exact own hs' p.hash hone
  · -- whatever becomes of the request, no case is an error of the store
    have hs := serving h.attributed.indexed src r
    generalize s.serve src r = a at hs ⊢
    cases hs with
    | unselected hno => rw [hsel] at hno; cases hno
    | found _ _ _ => exact ⟨_, _, rfl⟩
    | unknown hno => rw [hc] at hno; cases hno
    | failed hsel' hc' hb' =>
        obtain ⟨rfl, rfl⟩ := Prod.mk.inj (Option.some.inj (hsel.symm.trans hsel'))
        obtain rfl := Except.ok.inj (hc.symm.trans hc')
        obtain ⟨hno, -⟩ := Prod.mk.inj (hb.symm.trans hb')
        cases hno
    | built _ _ _ _ => exact ⟨_, _, rfl⟩

end MaterialSystem

/-! ### Two materials with one key -/

namespace SharedKey

open MaterialSystem

/-- The shader ids are chosen so that the two keys are equal. -/
def rootText : String :=
  "\x7b\"materials\":[" ++
  "\x7b\"id\":\"m1\",\"pass\":\"forward\",\"shaders\":\x7b\"vertex\":" ++
    "\x7b\"id\":\"vs_a3gt\",\"file\":\"lit.wgsl\",\"profile\":\"vs_6_0\"\x7d\x7d\x7d," ++
  "\x7b\"id\":\"m2\",\"pass\":\"forward\",\"shaders\":\x7b\"vertex\":" ++
    "\x7b\"id\":\"qiNtKjn2\",\"file\":\"lit.wgsl\",\"profile\":\"vs_6_0\"\x7d\x7d\x7d]," ++
  "\"renderPasses\":[\x7b\"name\":\"forward\"\x7d]\x7d"

def files : Source :=
  ((({} : MemorySource).insertText "root.json" rootText).insertText "lit.wgsl" "").toSource

/-- Tools that take everything. -/
def tools : Toolchain Counts where
  compile _ r := .ok ⟨.vertex, r.entry, []⟩
  reflect _   := .ok []
  backend     := .simulated

def request (i : Nat) : PipelineRequest := ⟨⟨i⟩, some "forward", "forward"⟩

/-- The origin of the pipeline that a request is served. -/
def servedOrigin? (s : MaterialSystem Counts) (i : Nat) : Option Origin :=
  (s.serve files (request i)).1.toOption.map (·.origin)

set_option maxRecDepth 100000 in
/-- After the first request the second one is served the pipeline of the first material. -/
theorem served_both : (match MaterialSystem.load tools {} {} files "root.json" with
    | .error _ => false
    | .ok s    =>
      servedOrigin? s 0 = some ⟨"m1", some "forward", "forward"⟩ &&
      servedOrigin? (s.serve files (request 0)).2 1 = some ⟨"m1", some "forward", "forward"⟩ &&
      s.catalog.origin? (request 1) = some ⟨"m2", some "forward", "forward"⟩) = true := by
  decide +kernel

theorem exists_served_both : ∃ s p₁ s₁ p₂ s₂, Reachable tools s ∧
    s.serve files (request 0) = (.ok p₁, s₁) ∧ s₁.serve files (request 1) = (.ok p₂, s₂) ∧
    p₂.origin = ⟨"m1", some "forward", "forward"⟩ ∧
    s₁.catalog.origin? (request 1) = some ⟨"m2", some "forward", "forward"⟩ := by
  have h := served_both
  split at h
  · cases h
  · next s hload =>
      have hs : Reachable tools s := .load {} {} files "root.json" hload
      simp only [Bool.and_eq_true, decide_eq_true_eq] at h
      obtain ⟨⟨h₁, h₂⟩, ho⟩ := h
      obtain ⟨p₁, hp₁, -⟩ := Option.map_eq_some_iff.1 h₁
      obtain ⟨p₂, hp₂, hm₂⟩ := Option.map_eq_some_iff.1 h₂
      generalize ht : (s.serve files (request 0)).2 = t at hp₂
      have e₁ : s.serve files (request 0) = (.ok p₁, t) :=
        Prod.ext (Result.toOption_eq_some.1 hp₁) ht
      have e₂ : t.serve files (request 1) = (.ok p₂, (t.serve files (request 1)).2) :=
        Prod.ext (Result.toOption_eq_some.1 hp₂) rfl
      refine ⟨s, p₁, t, p₂, _, hs, e₁, e₂, hm₂, ?_⟩
      rw [(hs.attributed.of_serve e₁).1]
      exact ho

/-- Not every request is served a pipeline of its own origin. -/
theorem other_origin_served : ¬ ∀ s, Reachable tools s → ∀ src r p s',
    s.serve src r = (.ok p, s') → s.catalog.origin? r = some p.origin := by
  intro hall
  obtain ⟨s, p₁, s₁, p₂, s₂, hs, h₁, h₂, hm, ho⟩ := exists_served_both
  have hs₁ : Reachable tools s₁ := by
    have := hs.serve files (request 0)
    rwa [h₁] at this
  have h := hall s₁ hs₁ files (request 1) p₂ s₂ h₂
  rw [ho, hm] at h
  simp at h

/-- The first request, and what then holds of its key. -/
theorem own_pipelines_of_first : ∃ s p s', Reachable tools s ∧
    s.serve files (request 0) = (.ok p, s') ∧
    (s'.OwnPipelines p.hash ↔ s'.catalog.OneOrigin p.hash) := by
  obtain ⟨s, p₁, s₁, -, -, hs, h₁, -⟩ := exists_served_both
  exact ⟨s, p₁, s₁, hs, h₁, (own_pipelines_iff hs).2.1 files (request 0) p₁ s₁ h₁⟩

end SharedKey

end RenderMaterials
