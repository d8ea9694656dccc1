import RenderMaterials.Proofs.System.Invalidation

/-!
# Material systems — what is built once

A pipeline that was served is served again for as long as nothing drops it, whatever else is asked
for in between, and none of the tools is asked again.  A request looks a key up, and what is built
for it has this key: nothing is put over an entry, and the cache never refuses a pipeline.

* `MaterialSystem.Spares`: the operations that do not touch a material.
* `kept_of_spared`: each of them keeps the material's pipelines; `kept_of_all_spared`: so does a run
  of them.
* `Reachable.error_of_serve`: what a request can fail with.
* `memoized`: in every run, what holds of the next request and of what comes after it.
-/

namespace RenderMaterials

/-- The errors of a request that selects no pass are those of names. -/
theorem Material.isReferenceFault_of_resolvePass {m : Material} {pass : Option String}
    {e : MaterialError} (h : m.resolvePass pass = .error e) : e.isReferenceFault = true := by
  unfold resolvePass at h
  split at h
  · split at h
    · cases h
    · exact Except.error.inj h ▸ rfl
  · split at h
    · cases h
    · exact Except.error.inj h ▸ rfl
    · exact Except.error.inj h ▸ rfl

theorem StateBlock.isReferenceFault_of_find {α : Type} [StateBlock α] {blocks : Table String α}
    {id : Option String} {referrer : String} {e : MaterialError}
    (h : find blocks id referrer = .error e) : e.isReferenceFault = true := by
  unfold find at h
  split at h
  · cases h
  · split at h
    · cases h
    · exact Except.error.inj h ▸ rfl

namespace MaterialSystem

variable {σ : Type} {tools : Toolchain σ} {s s' : MaterialSystem σ} {src : Source}
  {r : PipelineRequest} {p : CompiledPipeline} {k : UInt64}

/-! ### Operations -/

/-- What can happen to a system between two requests. -/
inductive Operation where
  | serve (src : Source) (r : PipelineRequest)
  | shaderChanged (path : String)
  | invalidateMaterial (id : String)

/-- One operation. -/
def perform (s : MaterialSystem σ) : Operation → MaterialSystem σ
  | .serve src r           => (s.serve src r).2
  | .shaderChanged path    => (s.shaderChanged path).2
  | .invalidateMaterial id => (s.invalidateMaterial id).2

/-- Operations in order. -/
def performAll (s : MaterialSystem σ) (os : List Operation) : MaterialSystem σ := os.foldl perform s

/-- An operation does not touch the material of an id: it is no invalidation of the material, and no
edit, as far as edits are followed, of a file that the material names. -/
def Spares (s : MaterialSystem σ) (id : String) : Operation → Prop
  | .serve _ _              => True
  | .shaderChanged path     => s.config.hotReload = true → ∀ file, Path.normalize path = .ok file →
    ∀ m ∈ s.catalog.materials, m.id = id → ¬ m.Names file
  | .invalidateMaterial id' => id' ≠ id

/-- Operations change neither the catalog nor the configuration. -/
theorem perform_frame (hi : s.catalog.Indexed) (o : Operation) :
    (s.perform o).catalog = s.catalog ∧ (s.perform o).config = s.config := by
  cases o with
  | serve src r =>
      obtain ⟨workshop, pipelines, e⟩ := serve_frame hi src r
      exact ⟨by rw [perform, e], by rw [perform, e]⟩
  | shaderChanged path =>
      have hf := forgets_shaderChanged s path
      exact ⟨hf.catalog, hf.config⟩
  | invalidateMaterial id => exact ⟨rfl, rfl⟩

theorem spares_congr {id : String} {o : Operation} (hcat : s'.catalog = s.catalog)
    (hconf : s'.config = s.config) : s'.Spares id o ↔ s.Spares id o := by
  cases o with
  | serve src r => rfl
  | shaderChanged path => rw [Spares, Spares, hcat, hconf]
  | invalidateMaterial id' => rfl

/-! ### What is kept -/

@[simp] theorem looked_refreshes (s : MaterialSystem σ) (h : PipelineHash) :
    (s.looked h).pipelines.refreshes = s.pipelines.refreshes := by
  simp only [looked, PipelineCache.get]
  split <;> rfl

/-- What a request does to the pipelines: nothing, or a new one at a key that had none.  Neither is
a refresh. -/
theorem pipelines_serve (hi : s.catalog.Indexed) (src : Source) (r : PipelineRequest) :
    (s.serve src r).2.pipelines.refreshes = s.pipelines.refreshes ∧
    ((s.serve src r).2.pipelines.entries = s.pipelines.entries ∨
      ∃ p s', s.serve src r = (.ok p, s') ∧ s.pipelines.entries.value? p.hash.value = none ∧
        s'.pipelines.entries = s.pipelines.entries.assign p.hash.value p) := by
  have hs := serving hi src r
  generalize s.serve src r = a at hs ⊢
  cases hs with
  | unselected _ => exact ⟨rfl, .inl rfl⟩
  | found _ _ _ => exact ⟨looked_refreshes s _, .inl (looked_entries s _)⟩
  | unknown _ => exact ⟨looked_refreshes s _, .inl (looked_entries s _)⟩
  | failed _ _ _ => exact ⟨looked_refreshes s _, .inl (looked_entries s _)⟩
  | built _ _ _ hnew => exact ⟨looked_refreshes s _, .inr ⟨_, _, rfl, hnew, rfl⟩⟩

/-- A request keeps every entry as it is. -/
theorem kept_of_serve (hi : s.catalog.Indexed) (src : Source) (r : PipelineRequest)
    (hp : s.pipelines.entries.value? k = some p) :
    (s.serve src r).2.pipelines.entries.value? k = some p := by
  rcases (pipelines_serve hi src r).2 with e | ⟨p', s', hserve, hnew, e⟩
  · rw [e]
    exact hp
  · -- the new entry is at a key that had none
    have hk : p'.hash.value ≠ k := by
      rintro rfl
      rw [hp] at hnew
      cases hnew
    rw [hserve, e, Table.value?_assign_other _ _ hk, hp]

/-- A request that fails keeps the entries as they are. -/
theorem entries_of_error (hi : s.catalog.Indexed) {e : MaterialError}
    (hserve : s.serve src r = (.error e, s')) :
    s'.pipelines.entries = s.pipelines.entries := by
  rcases (pipelines_serve hi src r).2 with he | ⟨p', s'', hok, -⟩
  · rwa [hserve] at he
  · rw [hserve] at hok
    cases hok

/-- An operation that spares the material of a pipeline keeps the pipeline. -/
theorem kept_of_spared (hi : s.catalog.Indexed) {o : Operation} (ho : s.Spares p.material o)
    (hp : s.pipelines.entries.value? k = some p) :
    (s.perform o).pipelines.entries.value? k = some p := by
  cases o with
  | serve src r => exact kept_of_serve hi src r hp
  | shaderChanged path =>
      by_cases hot : s.config.hotReload = true
      · cases hn : Path.normalize path with
        | error e => simp only [perform, shaderChanged, hot, hn]; exact hp
        | ok file => exact kept_of_not_names hi hot hn hp (ho hot file hn)
      · simp only [perform, shaderChanged, hot]
        exact hp
  | invalidateMaterial id => exact Table.value?_filter hp (decide_eq_true (Ne.symm ho))

/-- So does a run of such operations. -/
theorem kept_of_all_spared (hi : s.catalog.Indexed) {os : List Operation}
    (hos : ∀ o ∈ os, s.Spares p.material o) (hp : s.pipelines.entries.value? k = some p) :
    (s.performAll os).catalog = s.catalog ∧
      (s.performAll os).pipelines.entries.value? k = some p := by
  induction os generalizing s with
  | nil => exact ⟨rfl, hp⟩
  | cons o os ih =>
      obtain ⟨hcat, hconf⟩ := perform_frame hi o
      have hrest := ih (s := s.perform o) (hcat ▸ hi)
        (fun o' ho' => (spares_congr hcat hconf).2 (hos o' (List.mem_cons_of_mem o ho')))
        (kept_of_spared hi (hos o List.mem_cons_self) hp)
      exact ⟨hrest.1.trans hcat, hrest.2⟩

/-! ### What is counted -/

/-- A system that has found a pipeline once more. -/
def hit (s : MaterialSystem σ) : MaterialSystem σ :=
  { s with pipelines := { s.pipelines with hits := s.pipelines.hits + 1 } }

theorem looked_of_found {h : PipelineHash} (hp : s.pipelines.entries.value? h.value = some p) :
    s.looked h = s.hit := by
  simp only [looked, hit, PipelineCache.get, hp]

/-- In every run, nothing was ever put over an entry. -/
theorem Reachable.refreshes (h : Reachable tools s) : s.pipelines.refreshes = 0 := by
  induction h with
  | load device config src root h =>
      obtain ⟨path, catalog, -, rfl⟩ := eq_of_load h
      rfl
  | serve src r h ih => rw [(pipelines_serve h.attributed.indexed src r).1, ih]
  | @shaderChanged s path h ih =>
      rcases shaderChanged_cases h.attributed.indexed h.listed path with e | ⟨file, e⟩
      · rw [e, ih]
      · rw [e]
        exact ih
  | invalidateMaterial id _ ih => exact ih
  | clearCaches _ ih => exact ih
  | @reload s src _ ih =>
      unfold MaterialSystem.reload
      split
      · exact ih
      · exact ih

/-! ### What a request fails with -/

theorem isReferenceFault_of_select_none {e : MaterialError}
    (hsel : s.catalog.select? r = none) (hserve : s.serve src r = (.error e, s')) :
    e.isReferenceFault = true := by
  unfold serve pipelineFor material? at hserve
  cases hm : s.catalog.materials[r.handle.index]? with
  | none =>
      simp only [hm] at hserve
      obtain rfl := Except.error.inj (Prod.mk.inj hserve).1
      rfl
  | some m =>
      cases hq : m.resolvePass r.pass with
      | ok q => rw [Catalog.select?_eq_some.2 ⟨hm, hq⟩] at hsel; cases hsel
      | error x =>
          have hh : requestHash m r.pass r.renderPass = .error x := by
            simp only [requestHash, PipelineHash.ofRequest, hq]
            rfl
          simp only [hm, hh] at hserve
          obtain rfl := Except.error.inj (Prod.mk.inj hserve).1
          exact Material.isReferenceFault_of_resolvePass hq

theorem isReferenceFault_of_renderPassConfig {name : String} {e : MaterialError}
    (h : s.renderPassConfig name = .error e) : e.isReferenceFault = true := by
  unfold renderPassConfig at h
  split at h
  · exact Except.error.inj h ▸ rfl
  · next rp _ =>
      unfold RenderPassConfig.resolve at h
      cases hf : StateBlock.find s.catalog.states.renderTarget rp.renderTarget?
          s!"render pass '{rp.name}'" with
      | ok target => rw [hf] at h; cases h
      | error x =>
          rw [hf] at h
          obtain rfl := Except.error.inj h
          exact StateBlock.isReferenceFault_of_find hf

/-- In every run, a request fails with an error of a name or of building, or with what the backend
answers. -/
theorem Reachable.error_of_serve (h : Reachable tools s) {e : MaterialError}
    (hserve : s.serve src r = (.error e, s')) :
    e.isReferenceFault = true ∨ Build.Fault s.tools e := by
  have hs := serving h.attributed.indexed src r
  rw [hserve] at hs
  cases hs with
  | unselected hsel => exact .inl (isReferenceFault_of_select_none hsel hserve)
  | unknown hc => exact .inl (isReferenceFault_of_renderPassConfig hc)
  | @failed m q _ _ _ _ hsel _ hb =>
      obtain ⟨hm, hq⟩ := Catalog.select?_eq_some.1 hsel
      have hmem := List.mem_of_getElem? hm
      exact .inr (Material.build_failsOnly src hq
        (h.closed.pass m hmem q (Material.mem_passes_of_resolvePass hq))
        (h.closed.vertexFormat m hmem) _ _ _ hb)

/-! ### Memoization -/

/-- What holds of a request and of what comes after it. -/
structure Memoizing (s : MaterialSystem σ) (src : Source) (r : PipelineRequest) : Prop where
  /-- What is built for the request has the key that is looked up for it. -/
  key    : ∀ m config w p w', s.material? r.handle = some m →
    s.renderPassConfig r.renderPass = .ok config →
    (m.build s.tools src s.catalog.states r.pass config).run w = (.ok p, w') →
    requestHash m r.pass r.renderPass = .ok p.hash
  /-- When the build succeeds, so does the request. -/
  stored : ∀ m config p w, s.material? r.handle = some m →
    s.renderPassConfig r.renderPass = .ok config →
    (m.build s.tools src s.catalog.states r.pass config).run s.workshop = (.ok p, w) →
    ∃ p' s', s.serve src r = (.ok p', s') ∧ s'.pipelines.entries.value? p.hash.value = some p'
  /-- No pipeline is replaced. -/
  kept   : ∀ k p, s.pipelines.entries.value? k = some p →
    (s.serve src r).2.pipelines.entries.value? k = some p
  /-- A failure leaves the pipelines as they are.  No key is refused as one that stands for no
  pipeline, unless the backend answers so. -/
  failed : ∀ e s', s.serve src r = (.error e, s') → s'.pipelines.entries = s.pipelines.entries ∧
    ∀ material pass, e = .invalidPipelineHash material pass → s.tools.backend.Answers e
  /-- What was served is served again after operations that spare its material, and a hit is all that
  comes of it. -/
  again  : ∀ p s', s.serve src r = (.ok p, s') → ∀ os, (∀ o ∈ os, s.Spares p.material o) →
    ∀ src', (s'.performAll os).serve src' r = (.ok p, (s'.performAll os).hit)

theorem memoizing_again (h : Reachable tools s) (hserve : s.serve src r = (.ok p, s'))
    {os : List Operation} (hos : ∀ o ∈ os, s.Spares p.material o) (src' : Source) :
    (s'.performAll os).serve src' r = (.ok p, (s'.performAll os).hit) := by
  obtain ⟨hcat, hkey, hentry, -⟩ := h.attributed.of_serve hserve
  obtain ⟨workshop, pipelines, e⟩ := serve_frame h.attributed.indexed src r
  rw [hserve] at e
  dsimp only at e
  have hconf : s'.config = s.config := by rw [e]
  obtain ⟨hcat', hentry'⟩ := kept_of_all_spared (hcat ▸ h.attributed.indexed)
    (fun o ho => (spares_congr hcat hconf).2 (hos o ho)) hentry
  rw [← hcat, ← hcat'] at hkey
  rw [serve_of_entry hkey hentry', looked_of_found hentry']

/-- What is built for a request selects a pass, and has the key that is looked up for it. -/
theorem requestHash_of_build {m : Material} {config : RenderPassConfig} {w w' : Workshop σ}
    (hi : s.catalog.Indexed) (hm : s.material? r.handle = some m)
    (hc : s.renderPassConfig r.renderPass = .ok config)
    (hb : (m.build s.tools src s.catalog.states r.pass config).run w = (.ok p, w')) :
    ∃ q, s.catalog.select? r = some (m, q) ∧
      PipelineHash.ofPass m.id q r.renderPass = p.hash ∧
      requestHash m r.pass r.renderPass = .ok p.hash := by
  obtain ⟨setting, -, -, -, -, -, hset, -⟩ := Material.build_eq_ok.1 hb
  have hq := Material.resolvePass_of_setting hset
  have hsel : s.catalog.select? r = some (m, setting.pass) := Catalog.select?_eq_some.2 ⟨hm, hq⟩
  have hkey := (build_request hi hsel hc hb).1
  rw [Catalog.key?, hsel] at hkey
  have hhash : PipelineHash.ofPass m.id setting.pass r.renderPass = p.hash := Option.some.inj hkey
  refine ⟨setting.pass, hsel, hhash, ?_⟩
  simp only [requestHash, PipelineHash.ofRequest, hq]
  rw [if_pos (PipelineHash.ofPass_isValid m.id setting.pass r.renderPass), hhash]

/-- A request whose pipeline can be built is served what is kept under the pipeline's key. -/
theorem exists_served_of_build {m : Material} {config : RenderPassConfig} {w : Workshop σ}
    (hi : s.catalog.Indexed) (hm : s.material? r.handle = some m)
    (hc : s.renderPassConfig r.renderPass = .ok config)
    (hb : (m.build s.tools src s.catalog.states r.pass config).run s.workshop = (.ok p, w)) :
    ∃ p' s', s.serve src r = (.ok p', s') ∧
      s'.pipelines.entries.value? p.hash.value = some p' := by
  obtain ⟨q, hsel, hhash, -⟩ := requestHash_of_build hi hm hc hb
  have hs := serving hi src r
  generalize s.serve src r = a at hs ⊢
  cases hs with
  | unselected hno => rw [hsel] at hno; cases hno
  | @found m' q' p' k hsel' hk hp =>
      obtain ⟨rfl, rfl⟩ := Prod.mk.inj (Option.some.inj (hsel.symm.trans hsel'))
      rw [hhash] at hk
      exact ⟨p', _, rfl, by rw [looked_entries, ← hk]; exact hp⟩
  | unknown hno => rw [hc] at hno; cases hno
  | failed hsel' hc' hb' =>
      obtain ⟨rfl, rfl⟩ := Prod.mk.inj (Option.some.inj (hsel.symm.trans hsel'))
      obtain rfl := Except.ok.inj (hc.symm.trans hc')
      cases (Prod.mk.inj (hb.symm.trans hb')).1
  | built hsel' hc' hb' _ =>
      obtain ⟨rfl, rfl⟩ := Prod.mk.inj (Option.some.inj (hsel.symm.trans hsel'))
      obtain rfl := Except.ok.inj (hc.symm.trans hc')
      obtain rfl := Except.ok.inj (Prod.mk.inj (hb.symm.trans hb')).1
      exact ⟨p, _, rfl, by simp [kept]⟩

theorem memoizing_of_reachable (h : Reachable tools s) (src : Source) (r : PipelineRequest) :
    s.Memoizing src r := by
  have hi := h.attributed.indexed
  refine ⟨fun m config w p w' hm hc hb => ?_,
    fun m config p w hm hc hb => exists_served_of_build hi hm hc hb,
    fun k p hp => kept_of_serve hi src r hp,
    fun e s' hserve => ⟨entries_of_error hi hserve, fun material pass he => ?_⟩,
    fun p s' hserve os hos src' => memoizing_again h hserve hos src'⟩
  · obtain ⟨-, -, -, hhash⟩ := requestHash_of_build hi hm hc hb
    exact hhash
  · rcases h.error_of_serve hserve with href | hbuild | hanswer
    · rw [he] at href; cases href
    · rw [he] at hbuild; cases hbuild
    · exact hanswer

/-- In every run nothing was ever put over an entry.  What is built for a request has the key that
is looked up for it, so that the request is served when its pipeline can be built, and replaces no
pipeline; a request that fails changes none.  After a request that was served, and after any
operations that do not touch the material of its pipeline, the same request gets the same pipeline:
no tool is called, and nothing changes but the number of hits.  With the backend without a graphics
interface no key is ever refused. -/
theorem memoized :
    (∀ {σ : Type} {tools : Toolchain σ} {s : MaterialSystem σ}, Reachable tools s →
      s.pipelines.refreshes = 0 ∧ ∀ src r, s.Memoizing src r) ∧
    ∀ {tools : Toolchain Counts} {s : MaterialSystem Counts}, tools.backend = .simulated →
      Reachable tools s → ∀ src r material pass,
        (s.serve src r).1 ≠ .error (.invalidPipelineHash material pass) := by
  refine ⟨fun h => ⟨h.refreshes, memoizing_of_reachable h⟩, fun hb h src r material pass he => ?_⟩
  have hanswer := ((memoizing_of_reachable h src r).failed _ _ (Prod.ext he rfl)).2 material pass rfl
  rw [h.loaded.1, hb] at hanswer
  exact Backend.not_simulated_answers _ hanswer

end MaterialSystem

/-! ### A request that is made again -/

namespace TwoFiles

open MaterialSystem

/-- A request for the other material and one for a material that is not there, an edit of the file
of the other one, and its invalidation. -/
def elsewhere : List Operation :=
  [.serve files (request 1), .serve files (request 7), .shaderChanged "sky.wgsl",
    .invalidateMaterial "m2"]

theorem normalize_sky : Path.normalize "sky.wgsl" = .ok "sky.wgsl" := by decide +kernel

/-- The first material is served again after operations on the other one. -/
theorem served_again : ∃ s p s', Reachable SharedKey.tools s ∧ SharedKey.tools.backend = .simulated ∧
    s.serve files (request 0) = (.ok p, s') ∧ p.material = "m1" ∧
    (∀ o ∈ elsewhere, s.Spares p.material o) ∧
    (s'.performAll elsewhere).serve files (request 0) = (.ok p, (s'.performAll elsewhere).hit) ∧
    (s.serve files (request 7)).1 ≠ .error (.invalidPipelineHash "m1" "forward") := by
  obtain ⟨s, hload, h⟩ := exists_dropsOne
  simp only [dropsOne, Bool.and_eq_true, decide_eq_true_eq] at h
  obtain ⟨⟨hserved, hnames⟩, -⟩ := h
  have hs : Reachable SharedKey.tools s := .load {} {} files "root.json" hload
  obtain ⟨p, hp, hm⟩ := Option.map_eq_some_iff.1 hserved
  have hserve : s.serve files (request 0) = (.ok p, (s.serve files (request 0)).2) :=
    Prod.ext (Result.toOption_eq_some.1 hp) rfl
  have hspares : ∀ o ∈ elsewhere, s.Spares p.material o := by
    intro o ho
    simp only [elsewhere, List.mem_cons, List.not_mem_nil, or_false] at ho
    rcases ho with rfl | rfl | rfl | rfl
    · trivial
    · trivial
    · intro _ file hn m hmem hid
      obtain rfl := Except.ok.inj (normalize_sky.symm.trans hn)
      exact of_decide_eq_true (List.all_eq_true.1 hnames m hmem) (hid.trans hm)
    · rw [hm]
      exact (by decide : "m2" ≠ "m1")
  exact ⟨s, p, _, hs, rfl, hserve, hm, hspares,
    ((memoized.1 hs).2 files (request 0)).again p _ hserve elsewhere hspares files,
    memoized.2 rfl hs files (request 7) "m1" "forward"⟩

end TwoFiles

end RenderMaterials
