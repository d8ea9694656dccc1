import RenderMaterials.Proofs.Pipeline.Lockstep
import RenderMaterials.Proofs.Source.Canonical
import RenderMaterials.Proofs.System.Invalidation
import RenderMaterials.System.Instance

/-!
# Material systems — reloading

A reload that fails changes nothing.  One that succeeds leaves a system that cannot be told from one
that is loaded at that moment: whatever it is asked from then on, the answers are the same, but for
the objects that a backend makes and the counters, which are not set back.

* `PipelineCache.Resumes`, `Resumes`: one system goes on from a base as another one goes on from
  nothing.
* `Abreast`: what two systems answer and become; each operation keeps them abreast.
* `Command`, `Reply`: what a system can be asked for; `Resumes.answer`, `Resumes.answers`: one
  command and then another.
* `resumes_of_reload`: where the two systems stand right after the reload.
* `reload_renews`: what a reload does, in every run.
* `NewMaterial.reload_answers`: a reload that finds a new material, and one that finds no file.
-/

namespace RenderMaterials

/-! ### Pipelines side by side -/

/-- From a base on, one cache is what another one is from nothing on. -/
structure PipelineCache.Resumes (c base c' : PipelineCache) : Prop where
  entries   : Table.Related (fun _ => CompiledPipeline.Alike) c.entries c'.entries
  hits      : c.hits = base.hits + c'.hits
  misses    : c.misses = base.misses + c'.misses
  refreshes : c.refreshes = base.refreshes + c'.refreshes

theorem CompiledPipeline.Alike.passLabel {p p' : CompiledPipeline} (h : p.Alike p') :
    p.passLabel = p'.passLabel := by
  rw [CompiledPipeline.passLabel, h.pass?]
  rfl

theorem CompiledPipeline.Alike.sameOrigin {p p' q q' : CompiledPipeline} (h : p.Alike p')
    (hq : q.Alike q') : p.sameOrigin q = p'.sameOrigin q' := by
  rw [CompiledPipeline.sameOrigin, h.material, h.pass?, h.renderPass, hq.material, hq.pass?,
    hq.renderPass]
  rfl

namespace PipelineCache.Resumes

variable {c base c' : PipelineCache} {p p' : CompiledPipeline}

theorem get (h : c.Resumes base c') (k : PipelineHash) :
    Option.Rel CompiledPipeline.Alike (c.get k).1 (c'.get k).1 ∧
      (c.get k).2.Resumes base (c'.get k).2 := by
  have hv := h.entries.value? k.value
  unfold PipelineCache.get
  rcases Result.rel_cases hv with ⟨e, e'⟩ | ⟨p, p', e, e', hp⟩
  · simp only [e, e']
    exact ⟨.none, h.entries, h.hits, by rw [h.misses, Nat.add_assoc], h.refreshes⟩
  · simp only [e, e']
    exact ⟨.some hp, h.entries, by rw [h.hits, Nat.add_assoc], h.misses, h.refreshes⟩

theorem store (h : c.Resumes base c') (hp : p.Alike p') :
    Result.Rel CompiledPipeline.Alike (c.store p).1 (c'.store p').1 ∧
      (c.store p).2.Resumes base (c'.store p').2 := by
  have hv := h.entries.value? p'.hash.value
  have hput := h.entries.assign (k := p'.hash.value) hp
  unfold PipelineCache.store
  simp only [hp.hash, hp.material, hp.passLabel]
  split
  · exact ⟨.error _, h⟩
  · rcases Result.rel_cases hv with ⟨e, e'⟩ | ⟨q, q', e, e', hq⟩
    · simp only [e, e']
      exact ⟨.ok hp, hput, h.hits, h.misses, h.refreshes⟩
    · simp only [e, e', hq.sameOrigin hp, hq.material, hq.passLabel]
      split
      · exact ⟨.ok hp, hput, h.hits, h.misses, by simp only [h.refreshes, Nat.add_assoc]⟩
      · exact ⟨.error _, h⟩

theorem invalidate (h : c.Resumes base c') (id : String) :
    (c.invalidate id).1 = (c'.invalidate id).1 ∧
      (c.invalidate id).2.Resumes base (c'.invalidate id).2 := by
  have hkept : Table.Related (fun _ => CompiledPipeline.Alike)
      (c.entries.filter fun e => decide (e.2.material ≠ id))
      (c'.entries.filter fun e => decide (e.2.material ≠ id)) :=
    List.rel_filter (fun e e' he => by simp [he.2.material]) h.entries
  refine ⟨?_, hkept, h.hits, h.misses, h.refreshes⟩
  unfold PipelineCache.invalidate
  dsimp only
  rw [h.entries.length_eq, hkept.length_eq]

theorem clear (h : c.Resumes base c') : c.clear.Resumes base c'.clear :=
  ⟨.nil, h.hits, h.misses, h.refreshes⟩

end PipelineCache.Resumes

/-! ### Systems side by side -/

/-- Two requests that were the same, and what came of them alike. -/
structure PassResult.Alike (r r' : PassResult) : Prop where
  request : r.request = r'.request
  result  : Result.Rel CompiledPipeline.Alike r.result r'.result

/-- A recorder is told alike. -/
inductive EncoderCall.Alike : EncoderCall → EncoderCall → Prop
  | setLayout {l l' : GpuLayout} : l.Alike l' → Alike (.setLayout l) (.setLayout l')
  | setPipeline {p p' : GpuPipeline} : p.Alike p' → Alike (.setPipeline p) (.setPipeline p')

namespace MaterialSystem

variable {σ α β : Type} {R : σ → σ → Prop} {tools : Toolchain σ} {s base t : MaterialSystem σ}

/-- From a base on, one system is what another one is from nothing on.  Nothing but what they have
built tells them apart. -/
structure Resumes (R : σ → σ → Prop) (s base t : MaterialSystem σ) : Prop where
  tools     : s.tools = t.tools
  config    : s.config = t.config
  root      : s.root = t.root
  catalog   : s.catalog = t.catalog
  backend   : t.tools.backend.Bisimilar R
  workshop  : s.workshop.Resumes R base.workshop t.workshop
  pipelines : s.pipelines.Resumes base.pipelines t.pipelines

/-- Two systems have done the same: their answers are related, and one of them still resumes the
other. -/
def Abreast (R : σ → σ → Prop) (base : MaterialSystem σ) (Q : α → β → Prop)
    (x : α × MaterialSystem σ) (y : β × MaterialSystem σ) : Prop :=
  Q x.1 y.1 ∧ x.2.Resumes R base y.2

theorem forgetShaders_countedOn (m : Material) (file : String) (c base : ReflectionCache) :
    forgetShaders m file (c.countedOn base) = (forgetShaders m file c).countedOn base := by
  unfold forgetShaders
  induction m.shaders.filter fun r => decide (r.file = file) generalizing c with
  | nil => rfl
  | cons r rs ih =>
      rw [List.foldl_cons, List.foldl_cons, ReflectionCache.invalidate_countedOn]
      exact ih _

namespace Resumes

/-- The parts in which one system differs from the other. -/
theorem exists_parts (h : s.Resumes R base t) : ∃ workshop pipelines,
    s = { t with workshop, pipelines } ∧ workshop.Resumes R base.workshop t.workshop ∧
      pipelines.Resumes base.pipelines t.pipelines := by
  obtain ⟨htools, hconfig, hroot, hcatalog, -, hw, hp⟩ := h
  refine ⟨s.workshop, s.pipelines, ?_, hw, hp⟩
  obtain ⟨tools, config, root, catalog, workshop, pipelines⟩ := s
  dsimp only at htools hconfig hroot hcatalog
  rw [htools, hconfig, hroot, hcatalog]

theorem of_parts (hb : t.tools.backend.Bisimilar R) {w w' : Workshop σ} {c c' : PipelineCache}
    (hw : w.Resumes R base.workshop w') (hc : c.Resumes base.pipelines c') :
    ({ t with workshop := w, pipelines := c } : MaterialSystem σ).Resumes R base
      { t with workshop := w', pipelines := c' } :=
  ⟨rfl, rfl, rfl, rfl, hb, hw, hc⟩

theorem buildPipeline (h : s.Resumes R base t) (src : Source) (m : Material) (pass : Option String)
    (renderPass : String) :
    Abreast R base (Result.Rel CompiledPipeline.Alike) (s.buildPipeline src m pass renderPass)
      (t.buildPipeline src m pass renderPass) := by
  have hb := h.backend
  obtain ⟨w, c, rfl, hw, hc⟩ := h.exists_parts
  have hconfig : ({ t with workshop := w, pipelines := c } : MaterialSystem σ).renderPassConfig
      renderPass = t.renderPassConfig renderPass := rfl
  unfold MaterialSystem.buildPipeline
  rw [hconfig]
  cases t.renderPassConfig renderPass with
  | error e => exact ⟨.error e, h⟩
  | ok config =>
      dsimp only
      obtain ⟨hr, hw'⟩ := Material.lockstep_build hb t.catalog.states m pass config w t.workshop hw
      generalize (m.build t.tools src t.catalog.states pass config).run w = x at hr hw' ⊢
      generalize (m.build t.tools src t.catalog.states pass config).run t.workshop = y
        at hr hw' ⊢
      obtain ⟨r, w₁⟩ := x
      obtain ⟨r', w₁'⟩ := y
      cases hr with
      | error e => exact ⟨.error e, of_parts hb hw' hc⟩
      | ok hp =>
          obtain ⟨hstored, hc'⟩ := hc.store hp
          exact ⟨hstored, of_parts hb hw' hc'⟩

theorem pipelineFor (h : s.Resumes R base t) (src : Source) (i : MaterialHandle)
    (pass : Option String) (renderPass : String) :
    Abreast R base (Result.Rel CompiledPipeline.Alike) (s.pipelineFor src i pass renderPass)
      (t.pipelineFor src i pass renderPass) := by
  have hb := h.backend
  obtain ⟨w, c, rfl, hw, hc⟩ := h.exists_parts
  have hmaterial : ({ t with workshop := w, pipelines := c } : MaterialSystem σ).material? i =
      t.material? i := rfl
  unfold MaterialSystem.pipelineFor
  rw [hmaterial]
  cases t.material? i with
  | none => exact ⟨.error _, h⟩
  | some m =>
      dsimp only
      cases requestHash m pass renderPass with
      | error e => exact ⟨.error e, h⟩
      | ok k =>
          obtain ⟨hfound, hc'⟩ := hc.get k
          dsimp only
          generalize c.get k = x at hfound hc' ⊢
          generalize t.pipelines.get k = y at hfound hc' ⊢
          obtain ⟨found, c₁⟩ := x
          obtain ⟨found', c₁'⟩ := y
          rcases Result.rel_cases hfound with ⟨e, e'⟩ | ⟨p, p', e, e', hp⟩
          · obtain rfl : found = none := e
            obtain rfl : found' = none := e'
            exact (of_parts hb hw hc').buildPipeline src m pass renderPass
          · obtain rfl : found = some p := e
            obtain rfl : found' = some p' := e'
            exact ⟨.ok hp, of_parts hb hw hc'⟩

theorem pipelineState (h : s.Resumes R base t) (src : Source) (i : MaterialHandle)
    (pass : String) :
    Abreast R base (Option.Rel CompiledPipeline.Alike) (s.pipelineState src i pass)
      (t.pipelineState src i pass) := by
  obtain ⟨hr, h'⟩ := h.pipelineFor src i (some pass) pass
  exact ⟨hr.toOption, h'⟩

theorem buildEach (h : s.Resumes R base t) (src : Source) (rs : List PassRequest) :
    Abreast R base (List.Forall₂ PassResult.Alike) (MaterialSystem.buildEach src s rs)
      (MaterialSystem.buildEach src t rs) := by
  induction rs generalizing s t with
  | nil => exact ⟨.nil, h⟩
  | cons r rs ih =>
      obtain ⟨hr, h₁⟩ := h.pipelineFor src r.handle r.pass? r.renderPass
      obtain ⟨hrs, h₂⟩ := ih h₁
      exact ⟨.cons ⟨rfl, hr⟩ hrs, h₂⟩

theorem buildAll (h : s.Resumes R base t) (src : Source) :
    Abreast R base (List.Forall₂ PassResult.Alike) (s.buildAll src) (t.buildAll src) := by
  unfold MaterialSystem.buildAll
  rw [h.catalog]
  exact h.buildEach src t.catalog.passRequests

/-- An instance whose handle is valid asks for its pipeline; another one has none. -/
theorem instancePipeline (h : s.Resumes R base t) (src : Source) (i : MaterialInstance)
    (pass : String) :
    Abreast R base (Option.Rel CompiledPipeline.Alike) (i.pipelineState s src pass)
      (i.pipelineState t src pass) := by
  unfold MaterialInstance.pipelineState
  split
  · exact h.pipelineState src i.handle pass
  · exact ⟨.none, h⟩

theorem setup (h : s.Resumes R base t) (src : Source) (i : MaterialInstance) (pass : String) :
    Abreast R base (List.Forall₂ EncoderCall.Alike) (i.setup s src pass) (i.setup t src pass) := by
  have hpass : s.pass? i.handle pass = t.pass? i.handle pass := by
    unfold pass? material?
    rw [h.catalog]
  unfold MaterialInstance.setup
  rw [hpass]
  split
  · obtain ⟨hp, h'⟩ := h.instancePipeline src i pass
    generalize i.pipelineState s src pass = x at hp h' ⊢
    generalize i.pipelineState t src pass = y at hp h' ⊢
    obtain ⟨p?, s'⟩ := x
    obtain ⟨p?', t'⟩ := y
    cases hp with
    | none => exact ⟨.nil, h'⟩
    | some hp => exact ⟨.cons (.setLayout hp.layout) (.cons (.setPipeline hp.pipeline) .nil), h'⟩
  · exact ⟨.nil, h⟩

theorem invalidateMaterial (h : s.Resumes R base t) (id : String) :
    Abreast R base Eq (s.invalidateMaterial id) (t.invalidateMaterial id) := by
  obtain ⟨hcount, hp⟩ := h.pipelines.invalidate id
  exact ⟨hcount, h.tools, h.config, h.root, h.catalog, h.backend, h.workshop, hp⟩

theorem forgetUser (h : s.Resumes R base t) (file id : String) :
    (s.forgetUser file id).Resumes R base (t.forgetUser file id) := by
  have hm : s.materialOfId? id = t.materialOfId? id := by
    unfold materialOfId? handle material?
    rw [h.catalog]
  refine ⟨h.tools, h.config, h.root, h.catalog, h.backend,
    ⟨?_, h.workshop.layouts, h.workshop.device, h.workshop.calls⟩, (h.pipelines.invalidate id).2⟩
  unfold MaterialSystem.forgetUser
  dsimp only
  rw [hm, h.workshop.reflections]
  split
  · exact forgetShaders_countedOn _ file _ base.workshop.reflections
  · rfl

theorem forgetUsers (h : s.Resumes R base t) (file : String) (ids : List String) :
    (ids.foldl (MaterialSystem.forgetUser file) s).Resumes R base
      (ids.foldl (MaterialSystem.forgetUser file) t) := by
  induction ids generalizing s t with
  | nil => exact h
  | cons id ids ih => exact ih (h.forgetUser file id)

theorem shaderChanged (h : s.Resumes R base t) (file : String) :
    Abreast R base Eq (s.shaderChanged file) (t.shaderChanged file) := by
  unfold MaterialSystem.shaderChanged
  rw [h.config, h.catalog]
  split
  · exact ⟨rfl, h⟩
  · split
    · exact ⟨rfl, h⟩
    · exact ⟨rfl, h.forgetUsers _ _⟩

theorem clearCaches (h : s.Resumes R base t) : s.clearCaches.Resumes R base t.clearCaches := by
  refine ⟨h.tools, h.config, h.root, h.catalog, h.backend,
    ⟨?_, .nil, h.workshop.device, h.workshop.calls⟩, h.pipelines.clear⟩
  change s.workshop.reflections.clear = _
  rw [h.workshop.reflections]
  rfl

theorem reload (h : s.Resumes R base t) (src : Source) :
    Abreast R base Eq (s.reload src) (t.reload src) := by
  have hload : Catalog.load s.config src s.root = Catalog.load t.config src t.root := by
    rw [h.config, h.root]
  unfold MaterialSystem.reload
  rw [hload]
  split
  · next catalog _ =>
      have h' : ({ s with catalog } : MaterialSystem σ).Resumes R base { t with catalog } :=
        ⟨h.tools, h.config, h.root, rfl, h.backend, h.workshop, h.pipelines⟩
      exact ⟨rfl, h'.clearCaches⟩
  · exact ⟨rfl, h⟩

end Resumes

/-! ### What a system can be asked for -/

/-- What a system can be asked for.  What reads files finds them as they are at that moment. -/
inductive Command where
  | handle (id : String)
  | material (i : MaterialHandle)
  | materialOrFallback (id : String)
  | pass (i : MaterialHandle) (name : String)
  | renderPass (name : String)
  | shaderFiles
  /-- All that was loaded. -/
  | catalog
  /-- How many pipelines, layouts and reflections there are. -/
  | cached
  | pipeline (src : Source) (r : PipelineRequest)
  | pipelineState (src : Source) (i : MaterialHandle) (pass : String)
  | setup (src : Source) (i : MaterialInstance) (pass : String)
  | buildAll (src : Source)
  | invalidateMaterial (id : String)
  | shaderChanged (file : String)
  | clearCaches
  | reload (src : Source)

/-- What a system answers. -/
inductive Reply where
  | handle (i : MaterialHandle)
  | material (m? : Option Material)
  | pass (p? : Option Pass)
  | renderPass (r : Except MaterialError RenderPassConfig)
  | files (fs : List String)
  | catalog (c : Catalog)
  | cached (pipelines layouts reflections : Nat)
  | pipeline (r : Except MaterialError CompiledPipeline)
  | state (p? : Option CompiledPipeline)
  | recorded (cs : List EncoderCall)
  | built (rs : List PassResult)
  | count (n : Nat)
  | done
  | loaded (r : Except LoadFailure Unit)

/-- Two answers that differ in the objects of a backend at most. -/
inductive Reply.Alike : Reply → Reply → Prop
  | same (r : Reply) : Alike r r
  | pipeline {r r' : Except MaterialError CompiledPipeline} :
      Result.Rel CompiledPipeline.Alike r r' → Alike (.pipeline r) (.pipeline r')
  | state {p? p?' : Option CompiledPipeline} :
      Option.Rel CompiledPipeline.Alike p? p?' → Alike (.state p?) (.state p?')
  | recorded {cs cs' : List EncoderCall} :
      List.Forall₂ EncoderCall.Alike cs cs' → Alike (.recorded cs) (.recorded cs')
  | built {rs rs' : List PassResult} :
      List.Forall₂ PassResult.Alike rs rs' → Alike (.built rs) (.built rs')

/-- An outcome as an answer. -/
def reply (f : α → Reply) (x : α × MaterialSystem σ) : Reply × MaterialSystem σ := (f x.1, x.2)

/-- What a system answers, and what becomes of it. -/
def answer (s : MaterialSystem σ) : Command → Reply × MaterialSystem σ
  | .handle id                => (.handle (s.handle id), s)
  | .material i               => (.material (s.material? i), s)
  | .materialOrFallback id    => (.material (s.materialOrFallback? id), s)
  | .pass i name              => (.pass (s.pass? i name), s)
  | .renderPass name          => (.renderPass (s.renderPassConfig name), s)
  | .shaderFiles              => (.files s.shaderFiles, s)
  | .catalog                  => (.catalog s.catalog, s)
  | .cached                   =>
    (.cached s.pipelines.entries.length s.workshop.layouts.entries.length
      s.workshop.reflections.entries.length, s)
  | .pipeline src r           => reply .pipeline (s.serve src r)
  | .pipelineState src i pass => reply .state (s.pipelineState src i pass)
  | .setup src i pass         => reply .recorded (i.setup s src pass)
  | .buildAll src             => reply .built (s.buildAll src)
  | .invalidateMaterial id    => reply .count (s.invalidateMaterial id)
  | .shaderChanged file       => reply .count (s.shaderChanged file)
  | .clearCaches              => (.done, s.clearCaches)
  | .reload src               => reply .loaded (s.reload src)

/-- Commands in order. -/
def answers (s : MaterialSystem σ) : List Command → List Reply × MaterialSystem σ
  | []      => ([], s)
  | c :: cs =>
    let (r, s)  := s.answer c
    let (rs, s) := s.answers cs
    (r :: rs, s)

theorem Abreast.reply {Q : α → β → Prop} {x : α × MaterialSystem σ} {y : β × MaterialSystem σ}
    {f : α → Reply} {g : β → Reply} (h : Abreast R base Q x y)
    (hf : ∀ a b, Q a b → (f a).Alike (g b)) :
    Abreast R base Reply.Alike (MaterialSystem.reply f x) (MaterialSystem.reply g y) :=
  ⟨hf _ _ h.1, h.2⟩

namespace Resumes

/-- A command keeps two systems abreast. -/
theorem answer (h : s.Resumes R base t) (c : Command) :
    Abreast R base Reply.Alike (s.answer c) (t.answer c) := by
  have hsame : ∀ {γ : Type} {f : γ → Reply} (a b : γ), a = b → (f a).Alike (f b) :=
    fun a _ e => e ▸ .same _
  obtain ⟨workshop, pipelines, rfl, hw, hp⟩ := h.exists_parts
  cases c with
  -- what is only read does not depend on what was built
  | handle id => exact ⟨.same _, h⟩
  | material i => exact ⟨.same _, h⟩
  | materialOrFallback id => exact ⟨.same _, h⟩
  | pass i name => exact ⟨.same _, h⟩
  | renderPass name => exact ⟨.same _, h⟩
  | shaderFiles => exact ⟨.same _, h⟩
  | catalog => exact ⟨.same _, h⟩
  | cached =>
      have hl := hw.layouts.length_eq
      have hr : workshop.reflections.entries = t.workshop.reflections.entries := by
        rw [hw.reflections]
        rfl
      refine ⟨?_, h⟩
      simp only [MaterialSystem.answer, hp.entries.length_eq, hl, hr]
      exact .same _
  | pipeline src r =>
      exact (h.pipelineFor src r.handle r.pass r.renderPass).reply fun _ _ => .pipeline
  | pipelineState src i pass => exact (h.pipelineState src i pass).reply fun _ _ => .state
  | setup src i pass => exact (h.setup src i pass).reply fun _ _ => .recorded
  | buildAll src => exact (h.buildAll src).reply fun _ _ => .built
  | invalidateMaterial id => exact (h.invalidateMaterial id).reply hsame
  | shaderChanged file => exact (h.shaderChanged file).reply hsame
  | clearCaches => exact ⟨.same .done, h.clearCaches⟩
  | reload src => exact (h.reload src).reply hsame

/-- Commands in order keep two systems abreast. -/
theorem answers (h : s.Resumes R base t) (cs : List Command) :
    Abreast R base (List.Forall₂ Reply.Alike) (s.answers cs) (t.answers cs) := by
  induction cs generalizing s t with
  | nil => exact ⟨.nil, h⟩
  | cons c cs ih =>
      obtain ⟨hr, h₁⟩ := h.answer c
      obtain ⟨hrs, h₂⟩ := ih h₁
      exact ⟨.cons hr hrs, h₂⟩

end Resumes

/-! ### What a reload does -/

/-- In every run the path of the root file is canonical. -/
theorem Reachable.canonical_root (h : Reachable tools s) : Path.normalize s.root = .ok s.root := by
  induction h with
  | load device config src root h =>
      obtain ⟨path, hpath, h⟩ := Result.bind_eq_ok.1 h
      obtain ⟨catalog, -, h⟩ := Result.bind_eq_ok.1 h
      obtain rfl := Except.ok.inj h
      exact Path.normalize_idempotent (Result.mapError_eq_ok.1 hpath)
  | serve src r h ih =>
      obtain ⟨w, pipelines, e⟩ := serve_frame h.attributed.indexed src r
      rw [e]
      exact ih
  | @shaderChanged s file _ ih =>
      rw [(forgets_shaderChanged s file).root]
      exact ih
  | invalidateMaterial id _ ih => exact ih
  | clearCaches _ ih => exact ih
  | @reload s src _ ih =>
      unfold MaterialSystem.reload
      split <;> exact ih

theorem reload_of_ok {src : Source} {catalog : Catalog}
    (h : Catalog.load s.config src s.root = .ok catalog) :
    s.reload src = (.ok (), ({ s with catalog } : MaterialSystem σ).clearCaches) := by
  simp only [MaterialSystem.reload, h]

/-- A reload that fails changes nothing. -/
theorem reload_of_error {src : Source} {f : LoadFailure}
    (h : Catalog.load s.config src s.root = .error f) : s.reload src = (.error f, s) := by
  simp only [MaterialSystem.reload, h]

/-- Right after a reload that succeeds a system resumes one that was loaded at that moment. -/
theorem resumes_of_reload (hb : s.tools.backend.Bisimilar R) {device : σ}
    (hd : R s.workshop.device device) (catalog : Catalog) :
    ({ s with catalog } : MaterialSystem σ).clearCaches.Resumes R
      ({ s with catalog } : MaterialSystem σ).clearCaches
      { s with catalog, workshop := { device }, pipelines := {} } :=
  ⟨rfl, rfl, rfl, rfl, hb, ⟨rfl, .nil, hd, [], (List.append_nil _).symm, .nil⟩,
    ⟨.nil, rfl, rfl, rfl⟩⟩

/-- A load under the path that a system was loaded under. -/
theorem load_of_root {device : σ} {config : SystemConfig} {src : Source} {root path : String}
    (h : Path.normalize root = .ok path) :
    load tools device config src root = (Catalog.load config src path).map fun catalog =>
      { tools, config, root := path, catalog, workshop := { device } } := by
  simp only [load, h, Except.mapError, Result.ok_bind]
  cases Catalog.load config src path <;> rfl

/-- A reload is all or nothing.  In every run: a reload that fails changes nothing, and fails as a
load of the same root with the same options and tools does.  One that succeeds does so when this
load does, and from then on the two systems cannot be told apart: with a backend that answers alike
in the states that the two find it in, each answer in a row of commands is the same but for the
objects that the backend made; what is loaded and what is kept stay the same in this sense, and the
counters and the calls of tools are those of the new system, counted on from the reload. -/
theorem reload_renews (hb : tools.backend.Bisimilar R) (h : Reachable tools s) (src : Source) :
    (∀ f s', s.reload src = (.error f, s') → s' = s) ∧
    Path.normalize s.root = .ok s.root ∧
    ∀ root device, Path.normalize root = .ok s.root → R s.workshop.device device →
      (∃ f s', s.reload src = (.error f, s') ∧
        load tools device s.config src root = .error f) ∨
      ∃ s' t, s.reload src = (.ok (), s') ∧ load tools device s.config src root = .ok t ∧
        ∀ cs, List.Forall₂ Reply.Alike (s'.answers cs).1 (t.answers cs).1 ∧
          (s'.answers cs).2.Resumes R s' (t.answers cs).2 := by
  obtain ⟨rfl, -⟩ := h.loaded
  cases hload : Catalog.load s.config src s.root with
  | error f =>
      have hr := reload_of_error hload
      refine ⟨fun f' s' hr' => ?_, h.canonical_root, fun root device hroot _ => .inl ⟨f, s, hr, ?_⟩⟩
      · exact (Prod.mk.inj (hr.symm.trans hr')).2.symm
      · rw [load_of_root hroot, hload]
        rfl
  | ok catalog =>
      have hr := reload_of_ok hload
      refine ⟨fun f' s' hr' => ?_, h.canonical_root, fun root device hroot hd => .inr
        ⟨_, _, hr, ?_, fun cs => (resumes_of_reload hb hd catalog).answers cs⟩⟩
      · cases (Prod.mk.inj (hr.symm.trans hr')).1
      · rw [load_of_root hroot, hload]
        rfl

end MaterialSystem

/-! ### A new material -/

namespace NewMaterial

open MaterialSystem

/-- The files with a material of one shader. -/
def files (id : String) : Source :=
  ((({} : MemorySource).insertText "root.json"
      ("\x7b\"materials\":[\x7b\"id\":\"" ++ id ++ "\",\"pass\":\"p\",\"shaders\":" ++
        "\x7b\"vertex\":\x7b\"file\":\"a\",\"profile\":\"vs_6_0\"\x7d\x7d\x7d]," ++
        "\"renderPasses\":[\x7b\"name\":\"p\"\x7d]\x7d")).insertText "a" "").toSource

def before : Source := files "m"

def after : Source := files "n"

/-- No files at all. -/
def gone : Source := ({} : MemorySource).toSource

def request : PipelineRequest := ⟨⟨0⟩, some "p", "p"⟩

/-- The objects that the backend has made once a request was served. -/
def madeBy (s : MaterialSystem Counts) : Counts := (s.serve before request).2.workshop.device

set_option maxRecDepth 100000 in
theorem loads : (MaterialSystem.load SharedKey.tools {} {} before "./root.json").toOption.any
      (fun s => madeBy s = ⟨1, 1⟩ && s.root = "root.json") = true ∧
    (Catalog.load {} after "root.json").isOk = true ∧
    (Catalog.load {} gone "root.json").isOk = false ∧
    (Path.normalize "./root.json").toOption = some "root.json" := by
  decide +kernel

/-- A system that has built a pipeline. -/
theorem exists_served : ∃ s, Reachable SharedKey.tools s ∧ s.workshop.device = ⟨1, 1⟩ ∧
    s.config = {} ∧ s.root = "root.json" := by
  obtain ⟨s, hload, h⟩ := (Option.any_eq_true _ _).1 loads.1
  obtain ⟨hmade, hroot⟩ := Bool.and_eq_true_iff.1 h
  have hload := Result.toOption_eq_some.1 hload
  have hs : Reachable SharedKey.tools s := .load {} {} before "./root.json" hload
  obtain ⟨path, catalog, -, rfl⟩ := eq_of_load hload
  obtain ⟨w, pipelines, hserve⟩ := serve_frame hs.attributed.indexed before request
  refine ⟨_, hs.serve before request, of_decide_eq_true hmade, ?_, ?_⟩
  · rw [hserve]
  · rw [hserve]
    exact of_decide_eq_true hroot

/-- The system is reloaded from other files, and from none. -/
theorem reload_answers : ∃ s, Reachable SharedKey.tools s ∧ s.workshop.device = ⟨1, 1⟩ ∧
    (∃ s' t, s.reload after = (.ok (), s') ∧
      MaterialSystem.load SharedKey.tools {} s.config after "./root.json" = .ok t ∧
      ∀ cs, List.Forall₂ Reply.Alike (s'.answers cs).1 (t.answers cs).1) ∧
    ∃ f, s.reload gone = (.error f, s) := by
  obtain ⟨s, hs, hmade, hconfig, hpath⟩ := exists_served
  obtain ⟨-, hafter, hgone, hroot⟩ := loads
  rw [← hconfig, ← hpath] at hafter hgone
  obtain ⟨catalog, hafter⟩ := Result.isOk_iff.1 hafter
  obtain ⟨f, hgone⟩ := Result.exists_error_of_isOk_eq_false hgone
  have hroot : Path.normalize "./root.json" = .ok s.root :=
    hpath ▸ Result.toOption_eq_some.1 hroot
  refine ⟨s, hs, hmade, ?_, f, reload_of_error hgone⟩
  rcases (reload_renews Backend.bisimilar_simulated hs after).2.2 "./root.json" {} hroot trivial
    with ⟨f', s', hr, -⟩ | ⟨s', t, hr, ht, hcs⟩
  · rw [reload_of_ok hafter] at hr
    cases (Prod.mk.inj hr).1
  · exact ⟨s', t, hr, ht, fun cs => (hcs cs).1⟩

end NewMaterial

end RenderMaterials
