import RenderMaterials.Proofs.Json.Listed
import RenderMaterials.Proofs.Pipeline.Building

/-!
# Building pipelines — two workshops side by side

A workshop whose caches were emptied goes on like one that is new: it is asked the same, and asks
its tools the same.  What tells the two apart is how far their counters are, and which objects the
backend has made in the meantime.

* `GpuLayout.Alike`, `GpuPipeline.Alike`, `CompiledPipeline.Alike`: the same but for the object that
  a backend made.
* `Backend.Bisimilar`: a backend that answers alike in states that are related.
* `Workshop.Resumes`: one workshop goes on from a base as another one goes on from nothing.
* `Build.Lockstep`: a step of a build that is taken alike in both workshops, and leads to two such
  workshops again; `Build.Lockstep.bind` puts steps together.
* `Material.lockstep_build`: builds are taken alike.
-/

namespace RenderMaterials

/-! ### Up to the objects of a backend -/

/-- Two layouts that differ in the objects they are at most. -/
inductive GpuLayout.Alike : GpuLayout → GpuLayout → Prop
  | simulated (id id' words : Nat) : Alike (.simulated id words) (.simulated id' words)
  | native (object object' : Nat) : Alike (.native object) (.native object')

/-- Two pipelines that differ in the objects they are at most. -/
inductive GpuPipeline.Alike : GpuPipeline → GpuPipeline → Prop
  | simulated (id id' : Nat) (label : String) (compute : Bool) :
      Alike (.simulated id label compute) (.simulated id' label compute)
  | native (object object' : String) : Alike (.native object) (.native object')

/-- Two descriptors that differ in the object of their layout at most. -/
def Descriptor.Alike (d d' : Descriptor) : Prop :=
  ∃ layout, d.layout.Alike layout ∧ d' = { d with layout }

/-- Two calls of one tool with what is alike. -/
inductive ToolCall.Alike : ToolCall → ToolCall → Prop
  | same (c : ToolCall) : Alike c c
  | pipeline {d d' : Descriptor} : d.Alike d' → Alike (.pipeline d) (.pipeline d')

/-- Two finished pipelines that differ in the objects that a backend made at most. -/
structure CompiledPipeline.Alike (p p' : CompiledPipeline) : Prop where
  hash       : p.hash = p'.hash
  pipeline   : p.pipeline.Alike p'.pipeline
  layout     : p.layout.Alike p'.layout
  spec       : p.spec = p'.spec
  material   : p.material = p'.material
  pass?      : p.pass? = p'.pass?
  renderPass : p.renderPass = p'.renderPass

/-- A backend that answers alike in related states. -/
structure Backend.Bisimilar {σ : Type} (b : Backend σ) (R : σ → σ → Prop) : Prop where
  layout   : ∀ native device device', R device device' →
    Result.Rel GpuLayout.Alike (b.createLayout native device).1 (b.createLayout native device').1 ∧
      R (b.createLayout native device).2 (b.createLayout native device').2
  pipeline : ∀ d d' device device', d.Alike d' → R device device' →
    Result.Rel GpuPipeline.Alike (b.createPipeline d device).1 (b.createPipeline d' device').1 ∧
      R (b.createPipeline d device).2 (b.createPipeline d' device').2

/-- The backend without a graphics interface answers alike, whatever it has made before. -/
theorem Backend.bisimilar_simulated : simulated.Bisimilar fun _ _ => True := by
  refine ⟨fun native device device' _ => ⟨.ok (.simulated _ _ _), trivial⟩, ?_⟩
  rintro d _ device device' ⟨layout, -, rfl⟩ -
  exact ⟨.ok (.simulated _ _ _ _), trivial⟩

/-! ### Counting on -/

namespace ReflectionCache

/-- A cache that has counted what another one has counted, too. -/
def countedOn (c base : ReflectionCache) : ReflectionCache :=
  { c with hits := base.hits + c.hits, misses := base.misses + c.misses }

variable (c base : ReflectionCache) (i : String) (h : UInt64)

theorem detach_countedOn : (c.countedOn base).detach i h =
    ((c.detach i h).1, (c.detach i h).2.countedOn base) := by
  unfold detach countedOn
  dsimp only
  split <;> rfl

theorem leave_countedOn : (c.countedOn base).leave i h = (c.leave i h).countedOn base := by
  unfold leave countedOn
  dsimp only
  split
  · next h' _ =>
      split
      · rfl
      · exact congrArg Prod.snd
          (detach_countedOn { c with hashByIdentity := c.hashByIdentity.assign i h } base i h')
  · rfl

theorem join_countedOn : (c.countedOn base).join i h = (c.join i h).countedOn base := by
  unfold join
  rw [apply_ite (countedOn · base)]
  rfl

theorem bind_countedOn : (c.countedOn base).bind i h = (c.bind i h).countedOn base := by
  rw [bind_eq, bind_eq, leave_countedOn, join_countedOn]

theorem invalidate_countedOn : (c.countedOn base).invalidate i =
    ((c.invalidate i).1, (c.invalidate i).2.countedOn base) := by
  cases hv : c.hashByIdentity.value? i with
  | none => rw [invalidate_unknown hv, invalidate_unknown (c := c.countedOn base) hv]
  | some h =>
      rw [invalidate_known hv, invalidate_known (c := c.countedOn base) hv]
      exact detach_countedOn { c with hashByIdentity := c.hashByIdentity.without i } base i h

theorem getOrReflect_countedOn (reflect : Reflector) (code : Bytecode) :
    (c.countedOn base).getOrReflect reflect code i =
      { c.getOrReflect reflect code i with
        cache := (c.getOrReflect reflect code i).cache.countedOn base } := by
  cases hv : c.entries.value? (contentHash code.bytes) with
  | some bs =>
      rw [getOrReflect_hit hv, getOrReflect_hit (c := c.countedOn base) hv, bind_countedOn]
      by_cases hi : c.hashByIdentity.value? i = some (contentHash code.bytes)
      · have hi' : (c.countedOn base).hashByIdentity.value? i =
          some (contentHash code.bytes) := hi
        rw [if_pos hi, if_pos hi']
        rfl
      · have hi' : (c.countedOn base).hashByIdentity.value? i ≠
          some (contentHash code.bytes) := hi
        rw [if_neg hi, if_neg hi']
        rfl
  | none =>
      cases hr : reflect code with
      | error reason =>
          rw [getOrReflect_failed hv hr, getOrReflect_failed (c := c.countedOn base) hv hr]
          rfl
      | ok bs =>
          rw [getOrReflect_found hv hr, getOrReflect_found (c := c.countedOn base) hv hr]
          exact congrArg (Answer.mk _ true) (bind_countedOn { c with
            misses  := c.misses + 1
            entries := c.entries.assign (contentHash code.bytes) bs } base i _)

end ReflectionCache

/-! ### Layouts side by side -/

/-- Two caches with layouts for the same specifications, made at the same time. -/
def LayoutCache.Alike (c c' : LayoutCache) : Prop :=
  Table.Related (fun _ e e' => e.1 = e'.1 ∧ e.2.Alike e'.2) c.entries c'.entries

/-- Two answers that differ in the objects of a backend at most. -/
structure LayoutCache.Answer.Alike {σ : Type} (R : σ → σ → Prop) (a a' : Answer σ) : Prop where
  result : Result.Rel GpuLayout.Alike a.result a'.result
  asked? : a.asked? = a'.asked?
  cache  : a.cache.Alike a'.cache
  device : R a.device a'.device

theorem LayoutCache.Alike.getOrCreate {σ : Type} {R : σ → σ → Prop} {b : Backend σ}
    {c c' : LayoutCache} {device device' : σ} (h : c.Alike c') (hb : b.Bisimilar R)
    (hd : R device device') (spec : LayoutSpec) :
    (c.getOrCreate b device spec).Alike R (c'.getOrCreate b device' spec) := by
  have hv := Table.Related.value? h spec.hash
  unfold LayoutCache.getOrCreate
  rcases Result.rel_cases hv with ⟨e, e'⟩ | ⟨⟨known, layout⟩, ⟨_, layout'⟩, e, e', rfl, hl⟩
  · simp only [e, e']
    cases NativeLayout.ofSpec spec with
    | error x => exact ⟨.error x, rfl, h, hd⟩
    | ok native =>
        obtain ⟨hresult, hdevice⟩ := hb.layout native device device' hd
        dsimp only
        generalize b.createLayout native device = made at hresult hdevice ⊢
        generalize b.createLayout native device' = made' at hresult hdevice ⊢
        obtain ⟨r, d⟩ := made
        obtain ⟨r', d'⟩ := made'
        cases hresult with
        | error x => exact ⟨.error x, rfl, h, hdevice⟩
        | ok hl => exact ⟨.ok hl, rfl, Table.Related.assign h ⟨rfl, hl⟩, hdevice⟩
  · simp only [e, e']
    split
    · exact ⟨.ok hl, rfl, h, hd⟩
    · exact ⟨.error _, rfl, h, hd⟩

/-! ### Workshops side by side -/

/-- From a base on, one workshop is what another one is from nothing on. -/
structure Workshop.Resumes {σ : Type} (R : σ → σ → Prop) (w base w' : Workshop σ) :
    Prop where
  reflections : w.reflections = w'.reflections.countedOn base.reflections
  layouts     : w.layouts.Alike w'.layouts
  device      : R w.device w'.device
  calls       : ∃ new, w.calls = base.calls ++ new ∧ List.Forall₂ ToolCall.Alike new w'.calls

variable {σ α β γ δ : Type} {R : σ → σ → Prop} {base w w' : Workshop σ} {tools : Toolchain σ}
  {src : Source}

/-- One more call of a tool in each. -/
theorem calls_snoc {cs cs₀ cs' : List ToolCall} {c c' : ToolCall}
    (h : ∃ new, cs = cs₀ ++ new ∧ List.Forall₂ ToolCall.Alike new cs') (hc : c.Alike c') :
    ∃ new, cs ++ [c] = cs₀ ++ new ∧ List.Forall₂ ToolCall.Alike new (cs' ++ [c']) := by
  obtain ⟨new, rfl, hnew⟩ := h
  exact ⟨new ++ [c], List.append_assoc .., List.rel_append hnew (.cons hc .nil)⟩

namespace Build

/-- A step that both workshops take, with results that are related. -/
def Lockstep (R : σ → σ → Prop) (base : Workshop σ) (Q : α → β → Prop) (x : Build σ α)
    (y : Build σ β) : Prop :=
  ∀ w w' : Workshop σ, w.Resumes R base w' →
    Result.Rel Q (x.run w).1 (y.run w').1 ∧ (x.run w).2.Resumes R base (y.run w').2

namespace Lockstep

variable {Q : α → β → Prop} {P : γ → δ → Prop}

theorem lift {r : Except MaterialError α} {r' : Except MaterialError β} (h : Result.Rel Q r r') :
    Lockstep R base Q (lift r) (lift r') :=
  fun _ _ hw => ⟨h, hw⟩

theorem same (r : Except MaterialError α) : Lockstep R base Eq (Build.lift r) (Build.lift r) :=
  lift (.refl (fun _ => rfl) r)

theorem bind {x : Build σ α} {y : Build σ β} {f : α → Build σ γ} {g : β → Build σ δ}
    (hx : Lockstep R base Q x y) (hf : ∀ a b, Q a b → Lockstep R base P (f a) (g b)) :
    Lockstep R base P (x >>= f) (y >>= g) := by
  intro w w' hw
  have h := hx w w' hw
  rw [run_bind, run_bind]
  generalize x.run w = p at h ⊢
  generalize y.run w' = q at h ⊢
  obtain ⟨r, w₁⟩ := p
  obtain ⟨r', w₁'⟩ := q
  obtain ⟨hr, hw₁⟩ := h
  cases hr with
  | error e => exact ⟨.error e, hw₁⟩
  | ok hab => exact hf _ _ hab w₁ w₁' hw₁

theorem compile (material pass : String) (s : ShaderReference) :
    Lockstep R base Eq (compile tools src material pass s) (compile tools src material pass s) := by
  intro w w' hw
  rw [run_compile_calls, run_compile_calls]
  exact ⟨.refl (fun _ => rfl) _, hw.reflections, hw.layouts, hw.device,
    calls_snoc hw.calls (.same _)⟩

theorem reflect (code : Bytecode) (identity : String) :
    Lockstep R base Eq (reflect tools code identity) (reflect tools code identity) := by
  intro w w' hw
  rw [run_reflect_calls, run_reflect_calls, hw.reflections, ReflectionCache.getOrReflect_countedOn]
  refine ⟨.refl (fun _ => rfl) _, rfl, hw.layouts, hw.device, ?_⟩
  dsimp only
  split
  · exact calls_snoc hw.calls (.same _)
  · exact hw.calls

theorem layout (hb : tools.backend.Bisimilar R) (spec : LayoutSpec) :
    Lockstep R base GpuLayout.Alike (layout tools spec) (layout tools spec) := by
  intro w w' hw
  obtain ⟨hresult, hasked, hcache, hdevice⟩ := hw.layouts.getOrCreate hb hw.device spec
  rw [run_layout_calls, run_layout_calls]
  refine ⟨hresult, hw.reflections, hcache, hdevice, ?_⟩
  dsimp only
  rw [hasked]
  split
  · exact calls_snoc hw.calls (.same _)
  · exact hw.calls

theorem pipeline (hb : tools.backend.Bisimilar R) {d d' : Descriptor} (hd : d.Alike d') :
    Lockstep R base GpuPipeline.Alike (pipeline tools d) (pipeline tools d') := by
  intro w w' hw
  obtain ⟨hresult, hdevice⟩ := hb.pipeline d d' w.device w'.device hd hw.device
  rw [run_pipeline, run_pipeline]
  exact ⟨hresult, hw.reflections, hw.layouts, hdevice, calls_snoc hw.calls (.pipeline hd)⟩

theorem shaders (material pass : String) (l : LayoutBuilder) (ss : List ShaderReference) :
    Lockstep R base Eq (shaders tools src material pass l ss)
      (shaders tools src material pass l ss) := by
  induction ss generalizing l with
  | nil => exact .same (.ok (l, []))
  | cons s ss ih =>
      refine .bind (.compile material pass s) fun code _ hcode => hcode ▸ ?_
      refine .bind (.reflect code s.identity) fun bindings _ hbindings => hbindings ▸ ?_
      refine .bind (.same _) fun _ _ _ => ?_
      exact .bind (ih _) fun r _ hr => hr ▸ .same (.ok _)

end Lockstep

end Build

/-- A build is the same step in both workshops, and gives what is alike. -/
theorem Material.lockstep_build (hb : tools.backend.Bisimilar R) (states : StateRegistry)
    (m : Material) (pass : Option String) (config : RenderPassConfig) :
    Build.Lockstep R base CompiledPipeline.Alike (m.build tools src states pass config)
      (m.build tools src states pass config) := by
  unfold build
  refine .bind (.same _) fun s _ hs => hs ▸ ?_
  refine .bind (.shaders m.id s.pass.label {} s.pass.shaders) fun r _ hr => hr ▸ ?_
  refine .bind (.same _) fun spec _ hspec => hspec ▸ ?_
  refine .bind (.layout hb spec) fun layout layout' hlayout => ?_
  refine .bind (.same _) fun vertexFormat? _ hv => hv ▸ ?_
  refine .bind (.pipeline hb ⟨layout', hlayout, rfl⟩) fun pipeline pipeline' hpipeline => ?_
  exact .lift (.ok ⟨rfl, hpipeline, hlayout, rfl, rfl, rfl, rfl⟩)

end RenderMaterials
