import RenderMaterials.Pipeline.Build
import RenderMaterials.Proofs.Material.Passes
import RenderMaterials.Proofs.Reflection.Faithful
import RenderMaterials.Proofs.Result

/-!
# Building pipelines — plans

A build asks its tools through caches.  Its `plan` asks them directly, and has no caches: what is
built from the same files is planned alike.

* `Material.build_eq_ok`: the parts of a build that succeeds.
* `Material.plan_congr`: a plan stays as long as its shaders compile to the same code.
* `run_shaders`: with a faithful reflection cache the shaders of a pass give what they give without
  one.
* `Material.keeps_build`: a build leaves a sound workshop sound, whether it succeeds or not.
* `Material.plan_of_build`, `Material.build_of_plan`: a build follows its plan, and a plan whose
  layout is made and whose pipeline the backend takes is built.
-/

namespace RenderMaterials

variable {σ α β : Type} {tools : Toolchain σ} {src : Source}

/-- What a compiler is asked for a shader. -/
def ShaderReference.request (s : ShaderReference) : CompileRequest :=
  ⟨s.file, s.entry, s.profile, s.defines⟩

/-! ### Steps of a build -/

namespace Build

variable {w w' : Workshop σ}

theorem run_bind (x : Build σ α) (f : α → Build σ β) (w : Workshop σ) :
    (x >>= f).run w = match x.run w with
      | (.ok a, w')    => (f a).run w'
      | (.error e, w') => (.error e, w') := by
  rw [ExceptT.run_bind]
  change StateT.bind x.run _ w = _
  unfold StateT.bind
  simp only [bind]
  rcases x.run w with ⟨_ | _, w₁⟩ <;> rfl

/-- Two steps succeed when each of them does. -/
theorem bind_eq_ok {x : Build σ α} {f : α → Build σ β} {b : β} :
    (x >>= f).run w = (.ok b, w') ↔
      ∃ a w₁, x.run w = (.ok a, w₁) ∧ (f a).run w₁ = (.ok b, w') := by
  rw [run_bind]
  rcases x.run w with ⟨e | a, w₁⟩
  · refine iff_of_false (fun h => ?_) fun ⟨a, w₂, h, _⟩ => ?_
    · cases (Prod.ext_iff.1 h).1
    · cases (Prod.ext_iff.1 h).1
  · constructor
    · exact fun h => ⟨a, w₁, rfl, h⟩
    · rintro ⟨a', w₂, h, h'⟩
      obtain ⟨ha, rfl⟩ := Prod.ext_iff.1 h
      obtain rfl := Except.ok.inj ha
      exact h'

theorem run_lift (r : Except MaterialError α) (w : Workshop σ) :
    (lift r : Build σ α).run w = (r, w) := rfl

theorem run_pure (a : α) (w : Workshop σ) : (pure a : Build σ α).run w = (.ok a, w) := rfl

theorem lift_eq_ok {r : Except MaterialError α} {a : α} :
    (lift r : Build σ α).run w = (.ok a, w') ↔ r = .ok a ∧ w = w' := by
  rw [run_lift]
  exact Prod.ext_iff

/-! What the workshop is after a step: the calls of tools are recorded, and apart from them only the
parts that are named here change. -/

theorem run_compile_calls (tools : Toolchain σ) (src : Source) (material pass : String)
    (s : ShaderReference) (w : Workshop σ) :
    (compile tools src material pass s).run w =
      ((tools.compile src s.request).mapError (.shaderCompilation material pass s.stage.name),
        { w with calls := w.calls ++ [.compile s.request] }) := by
  unfold compile ShaderReference.request
  simp only [run_bind]
  cases tools.compile src ⟨s.file, s.entry, s.profile, s.defines⟩ with
  | error reason => rfl
  | ok code => rfl

theorem run_reflect_calls (tools : Toolchain σ) (code : Bytecode) (identity : String)
    (w : Workshop σ) :
    (reflect tools code identity).run w =
      ((w.reflections.getOrReflect tools.reflect code identity).result, { w with
        reflections := (w.reflections.getOrReflect tools.reflect code identity).cache
        calls       := if (w.reflections.getOrReflect tools.reflect code identity).asked then
          w.calls ++ [.reflect code] else w.calls }) := by
  have hget : (get : Build σ (Workshop σ)).run w = (.ok w, w) := rfl
  unfold reflect
  simp only [run_bind, hget]
  cases (w.reflections.getOrReflect tools.reflect code identity).asked with
  | true => rfl
  | false => rfl

theorem run_layout_calls (tools : Toolchain σ) (spec : LayoutSpec) (w : Workshop σ) :
    (layout tools spec).run w =
      ((w.layouts.getOrCreate tools.backend w.device spec).result, { w with
        layouts := (w.layouts.getOrCreate tools.backend w.device spec).cache
        device  := (w.layouts.getOrCreate tools.backend w.device spec).device
        calls   := match (w.layouts.getOrCreate tools.backend w.device spec).asked? with
          | some native => w.calls ++ [.layout native]
          | none        => w.calls }) := by
  have hget : (get : Build σ (Workshop σ)).run w = (.ok w, w) := rfl
  unfold layout
  simp only [run_bind, hget]
  cases (w.layouts.getOrCreate tools.backend w.device spec).asked? with
  | none => rfl
  | some native => rfl

theorem run_compile (tools : Toolchain σ) (src : Source) (material pass : String)
    (s : ShaderReference) (w : Workshop σ) :
    ∃ calls, (compile tools src material pass s).run w =
      ((tools.compile src s.request).mapError (.shaderCompilation material pass s.stage.name),
        { w with calls }) :=
  ⟨_, run_compile_calls tools src material pass s w⟩

theorem run_reflect (tools : Toolchain σ) (code : Bytecode) (identity : String) (w : Workshop σ) :
    ∃ calls, (reflect tools code identity).run w =
      ((w.reflections.getOrReflect tools.reflect code identity).result, { w with
        reflections := (w.reflections.getOrReflect tools.reflect code identity).cache
        calls }) :=
  ⟨_, run_reflect_calls tools code identity w⟩

theorem run_layout (tools : Toolchain σ) (spec : LayoutSpec) (w : Workshop σ) :
    ∃ calls, (layout tools spec).run w =
      ((w.layouts.getOrCreate tools.backend w.device spec).result, { w with
        layouts := (w.layouts.getOrCreate tools.backend w.device spec).cache
        device  := (w.layouts.getOrCreate tools.backend w.device spec).device
        calls }) :=
  ⟨_, run_layout_calls tools spec w⟩

theorem run_pipeline (tools : Toolchain σ) (d : Descriptor) (w : Workshop σ) :
    (pipeline tools d).run w =
      ((tools.backend.createPipeline d w.device).1, { w with
        device := (tools.backend.createPipeline d w.device).2
        calls  := w.calls ++ [.pipeline d] }) := rfl

end Build

/-! ### The parts of a build -/

namespace Material

variable {states : StateRegistry} {m : Material} {pass : Option String} {config : RenderPassConfig}
  {w w' : Workshop σ} {p : CompiledPipeline}

/-- What backends know a pipeline of a pass by. -/
def pipelineLabel (m : Material) (p : Pass) (config : RenderPassConfig) : String :=
  s!"{m.id}/{p.label}@{config.name}"

theorem build_eq_ok : (m.build tools src states pass config).run w = (.ok p, w') ↔
    ∃ s l stages w₁ w₂ vertexFormat?,
      m.setting states pass config = .ok s ∧
      (Build.shaders tools src m.id s.pass.label {} s.pass.shaders).run w = (.ok (l, stages), w₁) ∧
      s.pass.finish l = .ok p.spec ∧
      (Build.layout tools p.spec).run w₁ = (.ok p.layout, w₂) ∧
      m.vertices states s.pass = .ok vertexFormat? ∧
      (Build.pipeline tools
        (s.descriptor (m.pipelineLabel s.pass config) stages vertexFormat? p.layout)).run w₂ =
          (.ok p.pipeline, w') ∧
      p.hash = PipelineHash.ofRequest m pass config.name ∧ p.material = m.id ∧
      p.pass? = s.pass.name? ∧ p.renderPass = config.name := by
  simp only [build, Build.bind_eq_ok, Build.lift_eq_ok]
  constructor
  · rintro ⟨s, w₀, ⟨hs, rfl⟩, ⟨l, stages⟩, w₁, hsh, spec, w₁', ⟨hf, rfl⟩, layout, w₂, hl, vf, w₂',
      ⟨hv, rfl⟩, pl, w₃, hp, e⟩
    obtain ⟨e, rfl⟩ := Prod.ext_iff.1 e
    obtain rfl := Except.ok.inj e
    exact ⟨s, l, stages, w₁, w₂, vf, hs, hsh, hf, hl, hv, hp, rfl, rfl, rfl, rfl⟩
  · rintro ⟨s, l, stages, w₁, w₂, vf, hs, hsh, hf, hl, hv, hp, hh, hm, hq, hr⟩
    refine ⟨s, w, ⟨hs, rfl⟩, (l, stages), w₁, hsh, p.spec, w₁, ⟨hf, rfl⟩, p.layout, w₂, hl, vf, w₂,
      ⟨hv, rfl⟩, p.pipeline, w', hp, ?_⟩
    rw [Build.run_pure, ← hh, ← hm, ← hq, ← hr]

/-- The pass of a pipeline is the one that its request selects. -/
theorem resolvePass_of_setting {s : Setting} (h : m.setting states pass config = .ok s) :
    m.resolvePass pass = .ok s.pass := by
  obtain ⟨p, hp, h⟩ := Result.bind_eq_ok.1 h
  obtain ⟨-, -, h⟩ := Result.bind_eq_ok.1 h
  obtain ⟨rasterizer, -, h⟩ := Result.bind_eq_ok.1 h
  obtain ⟨depthStencil, -, h⟩ := Result.bind_eq_ok.1 h
  obtain ⟨blend, -, h⟩ := Result.bind_eq_ok.1 h
  split at h
  · obtain ⟨renderTarget, -, h⟩ := Result.bind_eq_ok.1 h
    obtain rfl := Except.ok.inj h
    exact hp
  · obtain rfl := Except.ok.inj h
    exact hp

end Material

/-! ### Plans -/

/-- What a pass is built from. -/
structure Plan where
  setting       : Setting
  stages        : List Bytecode
  spec          : LayoutSpec
  vertexFormat? : Option VertexFormat

namespace Plan

/-- The code of a list of shaders, with their bindings merged into a layout. -/
def shaders (tools : Toolchain σ) (src : Source) (material pass : String) :
    LayoutBuilder → List ShaderReference → Except MaterialError (LayoutBuilder × List Bytecode)
  | l, []      => .ok (l, [])
  | l, s :: ss => do
    let code ← (tools.compile src s.request).mapError
      (.shaderCompilation material pass s.stage.name)
    let bindings ← (tools.reflect code).mapError (.reflection s.identity)
    (l.add bindings).2
    let (l, rest) ← shaders tools src material pass (l.add bindings).1 ss
    return (l, code :: rest)

end Plan

namespace Material

/-- The plan of a pass of a material in a render pass. -/
def plan (tools : Toolchain σ) (src : Source) (states : StateRegistry) (m : Material)
    (pass : Option String) (config : RenderPassConfig) : Except MaterialError Plan := do
  let setting ← m.setting states pass config
  let (l, stages) ← Plan.shaders tools src m.id setting.pass.label {} setting.pass.shaders
  let spec ← setting.pass.finish l
  let vertexFormat? ← m.vertices states setting.pass
  return { setting, stages, spec, vertexFormat? }

end Material

/-- The code of shaders that compile to the same code as before. -/
theorem Plan.shaders_congr {src' : Source} {material pass : String} {ss : List ShaderReference}
    {l : LayoutBuilder} {r : LayoutBuilder × List Bytecode}
    (hc : ∀ s ∈ ss, ∀ code, tools.compile src s.request = .ok code →
      tools.compile src' s.request = .ok code)
    (h : Plan.shaders tools src material pass l ss = .ok r) :
    Plan.shaders tools src' material pass l ss = .ok r := by
  induction ss generalizing l r with
  | nil => exact h
  | cons s ss ih =>
      obtain ⟨code, hcode, h⟩ := Result.bind_eq_ok.1 h
      obtain ⟨bindings, hb, h⟩ := Result.bind_eq_ok.1 h
      obtain ⟨u, hl, h⟩ := Result.bind_eq_ok.1 h
      obtain ⟨rest, hr, h⟩ := Result.bind_eq_ok.1 h
      have hcode' := hc s (by simp) code (Result.mapError_eq_ok.1 hcode)
      have hr' := ih (fun t ht => hc t (by simp [ht])) hr
      rw [Plan.shaders, hcode', Except.mapError, Result.ok_bind, hb, Result.ok_bind, hl,
        Result.ok_bind, hr', Result.ok_bind]
      exact h

/-- All shaders of a pass compile, if it has code. -/
theorem Plan.compile_of_shaders {material pass : String} {ss : List ShaderReference}
    {l : LayoutBuilder} {r : LayoutBuilder × List Bytecode}
    (h : Plan.shaders tools src material pass l ss = .ok r) {s : ShaderReference} (hs : s ∈ ss) :
    ∃ code, tools.compile src s.request = .ok code := by
  induction ss generalizing l r with
  | nil => simp at hs
  | cons t ss ih =>
      obtain ⟨code, hcode, h⟩ := Result.bind_eq_ok.1 h
      obtain ⟨bindings, -, h⟩ := Result.bind_eq_ok.1 h
      obtain ⟨u, -, h⟩ := Result.bind_eq_ok.1 h
      obtain ⟨rest, hr, -⟩ := Result.bind_eq_ok.1 h
      rcases List.mem_cons.1 hs with rfl | hs
      · exact ⟨code, Result.mapError_eq_ok.1 hcode⟩
      · exact ih hr hs

namespace Material

variable {states : StateRegistry} {m : Material} {pass : Option String} {config : RenderPassConfig}
  {p : Plan}

theorem plan_eq_ok : m.plan tools src states pass config = .ok p ↔ ∃ l,
    m.setting states pass config = .ok p.setting ∧
    Plan.shaders tools src m.id p.setting.pass.label {} p.setting.pass.shaders =
      .ok (l, p.stages) ∧
    p.setting.pass.finish l = .ok p.spec ∧
    m.vertices states p.setting.pass = .ok p.vertexFormat? := by
  simp only [plan, Result.bind_eq_ok]
  constructor
  · rintro ⟨s, hs, ⟨l, stages⟩, hsh, spec, hf, vf, hv, h⟩
    obtain rfl := Except.ok.inj h
    exact ⟨l, hs, hsh, hf, hv⟩
  · rintro ⟨l, hs, hsh, hf, hv⟩
    exact ⟨p.setting, hs, (l, p.stages), hsh, p.spec, hf, p.vertexFormat?, hv, rfl⟩

/-- The pass of a plan is the one that its request selects. -/
theorem resolvePass_of_plan (h : m.plan tools src states pass config = .ok p) :
    m.resolvePass pass = .ok p.setting.pass := by
  obtain ⟨l, hs, -⟩ := plan_eq_ok.1 h
  exact resolvePass_of_setting hs

/-- All shaders of the pass compile, if there is a plan. -/
theorem compile_of_plan (h : m.plan tools src states pass config = .ok p) {s : ShaderReference}
    (hs : s ∈ p.setting.pass.shaders) : ∃ code, tools.compile src s.request = .ok code := by
  obtain ⟨l, -, hsh, -⟩ := plan_eq_ok.1 h
  exact Plan.compile_of_shaders hsh hs

/-- A plan is the same for all requests that select one pass. -/
theorem plan_eq_of_resolvePass {pass' : Option String}
    (h : m.resolvePass pass = m.resolvePass pass') :
    m.plan tools src states pass config = m.plan tools src states pass' config := by
  unfold plan setting
  rw [h]

/-- A plan stays as long as the shaders of its pass compile to the same code. -/
theorem plan_congr {src' : Source}
    (hc : ∀ s ∈ p.setting.pass.shaders, ∀ code, tools.compile src s.request = .ok code →
      tools.compile src' s.request = .ok code)
    (h : m.plan tools src states pass config = .ok p) :
    m.plan tools src' states pass config = .ok p := by
  obtain ⟨l, hs, hsh, hf, hv⟩ := plan_eq_ok.1 h
  exact plan_eq_ok.2 ⟨l, hs, Plan.shaders_congr hc hsh, hf, hv⟩

end Material

/-- What the backend is asked for when a plan is built. -/
def Plan.descriptor (p : Plan) (m : Material) (config : RenderPassConfig) (layout : GpuLayout) :
    Descriptor :=
  p.setting.descriptor (m.pipelineLabel p.setting.pass config) p.stages p.vertexFormat? layout

/-! ### Following a plan -/

section Following

variable {codes : Bytecode → Prop} {w w' : Workshop σ} {ss : List ShaderReference}

/-- The code of some shaders is in a set. -/
def Compiles (tools : Toolchain σ) (src : Source) (codes : Bytecode → Prop)
    (ss : List ShaderReference) : Prop :=
  ∀ s ∈ ss, ∀ code, tools.compile src s.request = .ok code → codes code

/-- With a faithful cache the shaders of a pass give what they give without one. -/
theorem run_shaders (ha : ToldApart tools.reflect codes) (hc : Compiles tools src codes ss)
    (hw : w.reflections.Faithful tools.reflect codes) (material pass : String) (l : LayoutBuilder) :
    ∃ reflections calls, reflections.Faithful tools.reflect codes ∧
      (Build.shaders tools src material pass l ss).run w =
        (Plan.shaders tools src material pass l ss, { w with reflections, calls }) := by
  induction ss generalizing l w with
  | nil => exact ⟨w.reflections, w.calls, hw, rfl⟩
  | cons s ss ih =>
      obtain ⟨calls, hcompile⟩ := Build.run_compile tools src material pass s w
      simp only [Build.shaders, Build.run_bind, hcompile, Plan.shaders]
      cases hcode : tools.compile src s.request with
      | error reason => exact ⟨w.reflections, calls, hw, rfl⟩
      | ok code =>
          -- the cache answers as the reflector does, and stays faithful for the other shaders
          have hin := hc s (by simp) code hcode
          obtain ⟨calls', hreflect⟩ :=
            Build.run_reflect tools code s.identity { w with calls }
          simp only [Except.mapError, Result.ok_bind, hreflect, hw.result hin]
          have hw' := hw.getOrReflect ha hin s.identity
          cases tools.reflect code with
          | error reason => exact ⟨_, calls', hw', rfl⟩
          | ok bs =>
              simp only [Build.run_lift, Result.ok_bind]
              cases (l.add bs).2 with
              | error e => exact ⟨_, calls', hw', rfl⟩
              | ok _ =>
                  obtain ⟨reflections, calls'', hf, hrest⟩ := @ih { w with
                    reflections := (w.reflections.getOrReflect tools.reflect code s.identity).cache
                    calls := calls' } (fun t ht => hc t (by simp [ht])) hw' (l.add bs).1
                  simp only [hrest]
                  cases Plan.shaders tools src material pass (l.add bs).1 ss with
                  | error e => exact ⟨reflections, calls'', hf, rfl⟩
                  | ok r => exact ⟨reflections, calls'', hf, rfl⟩

/-- What a layout cache holds stays. -/
def LayoutCache.Grows (c c' : LayoutCache) : Prop :=
  ∀ h e, c.entries.value? h = some e → c'.entries.value? h = some e

theorem LayoutCache.Grows.refl (c : LayoutCache) : c.Grows c := fun _ _ => id

theorem LayoutCache.Grows.trans {c c₁ c₂ : LayoutCache} (h : c.Grows c₁) (h' : c₁.Grows c₂) :
    c.Grows c₂ :=
  fun k e he => h' k e (h k e he)

/-- Each layout of a cache was made by the backend for its specification. -/
def LayoutCache.Made (b : Backend σ) (c : LayoutCache) : Prop :=
  ∀ h spec layout, c.entries.value? h = some (spec, layout) →
    ∃ native device, NativeLayout.ofSpec spec = .ok native ∧
      (b.createLayout native device).1 = .ok layout

theorem LayoutCache.Made.getOrCreate {b : Backend σ} {c : LayoutCache} (h : c.Made b) (device : σ)
    (spec : LayoutSpec) :
    (c.getOrCreate b device spec).cache.Made b ∧ c.Grows (c.getOrCreate b device spec).cache ∧
      ∀ layout, (c.getOrCreate b device spec).result = .ok layout →
        (c.getOrCreate b device spec).cache.entries.value? spec.hash = some (spec, layout) := by
  unfold LayoutCache.getOrCreate
  split
  · next known layout hv =>
      split
      · next hk =>
          refine ⟨h, .refl c, fun layout' hl => ?_⟩
          rw [hv, hk, Except.ok.inj hl]
      · exact ⟨h, .refl c, fun layout' hl => by cases hl⟩
  · next hv =>
      -- the key is free, so what is there stays
      split
      · exact ⟨h, .refl c, fun layout hl => by cases hl⟩
      · next native hn =>
          split
          · exact ⟨h, .refl c, fun layout hl => by cases hl⟩
          · next layout device' hmade =>
              refine ⟨fun k spec' layout' hk => ?_, fun k e hk => ?_, fun layout' hl => ?_⟩
              · rw [Table.value?_assign] at hk
                split at hk
                · cases hk
                  exact ⟨native, device, hn, by rw [hmade]⟩
                · exact h k spec' layout' hk
              · have hne : spec.hash ≠ k := fun e => by rw [e, hk] at hv; cases hv
                rw [Table.value?_assign, if_neg hne]
                exact hk
              · rw [Table.value?_assign, if_pos rfl, Except.ok.inj hl]

theorem LayoutCache.getOrCreate_known {b : Backend σ} {c : LayoutCache} {spec : LayoutSpec}
    {layout : GpuLayout} (h : c.entries.value? spec.hash = some (spec, layout)) (device : σ) :
    (c.getOrCreate b device spec).result = .ok layout := by
  unfold getOrCreate
  rw [h]
  simp

theorem LayoutCache.getOrCreate_new {b : Backend σ} {c : LayoutCache} {spec : LayoutSpec}
    {native : NativeLayout} {device : σ} {layout : GpuLayout}
    (h : c.entries.value? spec.hash = none) (hn : NativeLayout.ofSpec spec = .ok native)
    (hl : (b.createLayout native device).1 = .ok layout) :
    (c.getOrCreate b device spec).result = .ok layout := by
  unfold getOrCreate
  rw [h, hn]
  dsimp only
  rcases hc : b.createLayout native device with ⟨e | l, device'⟩
  · rw [hc] at hl
    cases hl
  · rw [hc] at hl
    exact hl

/-- A backend that takes a request or not for what is asked, whatever its state is and whichever
object a layout is. -/
structure Backend.Steady (b : Backend σ) : Prop where
  layout   : ∀ native device device',
    (b.createLayout native device).1.isOk = (b.createLayout native device').1.isOk
  pipeline : ∀ (d : Descriptor) layout device device',
    (b.createPipeline d device).1.isOk = (b.createPipeline { d with layout } device').1.isOk

theorem Backend.simulated_steady : simulated.Steady := ⟨fun _ _ _ => rfl, fun _ _ _ _ => rfl⟩

/-- What is kept of earlier builds is right: the reflection cache is faithful, and each layout was
made for its specification. -/
structure Workshop.Sound (tools : Toolchain σ) (codes : Bytecode → Prop) (w : Workshop σ) :
    Prop where
  faithful : w.reflections.Faithful tools.reflect codes
  made     : w.layouts.Made tools.backend

/-- A step keeps the workshop sound and drops no layout, whether it succeeds or not. -/
def Build.Keeps (tools : Toolchain σ) (codes : Bytecode → Prop) (x : Build σ α) : Prop :=
  ∀ w : Workshop σ, w.Sound tools codes →
    (x.run w).2.Sound tools codes ∧ w.layouts.Grows (x.run w).2.layouts

namespace Build.Keeps

variable {x : Build σ α} {a : Except MaterialError α}

theorem after (h : Build.Keeps tools codes x) (hr : x.run w = (a, w')) (hw : w.Sound tools codes) :
    w'.Sound tools codes ∧ w.layouts.Grows w'.layouts := by
  have := h w hw
  rwa [hr] at this

theorem lift (r : Except MaterialError α) : Build.Keeps tools codes (Build.lift r : Build σ α) :=
  fun w hw => ⟨hw, .refl w.layouts⟩

theorem bind {f : α → Build σ β} (hx : Build.Keeps tools codes x)
    (hf : ∀ a w₁ w₂, x.run w₁ = (.ok a, w₂) → Build.Keeps tools codes (f a)) :
    Build.Keeps tools codes (x >>= f) := by
  intro w hw
  have h := hx w hw
  rw [Build.run_bind]
  rcases hr : x.run w with ⟨e | a, w₁⟩
  · rw [hr] at h
    exact h
  · rw [hr] at h
    have h' := hf a w w₁ hr w₁ h.1
    exact ⟨h'.1, h.2.trans h'.2⟩

theorem layout (spec : LayoutSpec) : Build.Keeps tools codes (Build.layout tools spec) := by
  intro w hw
  obtain ⟨calls, h⟩ := Build.run_layout tools spec w
  obtain ⟨hmade, hgrows, -⟩ := hw.made.getOrCreate w.device spec
  rw [h]
  exact ⟨⟨hw.faithful, hmade⟩, hgrows⟩

theorem pipeline (d : Descriptor) : Build.Keeps tools codes (Build.pipeline tools d) := by
  intro w hw
  rw [Build.run_pipeline]
  exact ⟨⟨hw.faithful, hw.made⟩, .refl w.layouts⟩

theorem shaders (ha : ToldApart tools.reflect codes) (hc : Compiles tools src codes ss)
    (material pass : String) (l : LayoutBuilder) :
    Build.Keeps tools codes (Build.shaders tools src material pass l ss) := by
  intro w hw
  obtain ⟨reflections, calls, hf, h⟩ := run_shaders ha hc hw.faithful material pass l
  rw [h]
  exact ⟨⟨hf, hw.made⟩, .refl w.layouts⟩

end Build.Keeps

namespace Material

variable {states : StateRegistry} {m : Material} {pass : Option String} {config : RenderPassConfig}
  {p : CompiledPipeline}

theorem compiles_of_setting {s : Setting} (hc : Compiles tools src codes m.shaders)
    (h : m.setting states pass config = .ok s) : Compiles tools src codes s.pass.shaders :=
  fun r hr => hc r (List.mem_flatMap.2
    ⟨s.pass, mem_passes_of_resolvePass (resolvePass_of_setting h), hr⟩)

/-- A build keeps the workshop sound, whether it succeeds or not. -/
theorem keeps_build (ha : ToldApart tools.reflect codes) (hc : Compiles tools src codes m.shaders) :
    Build.Keeps tools codes (m.build tools src states pass config) := by
  unfold build
  refine .bind (.lift _) fun s w₁ w₂ hs => ?_
  have hs' := compiles_of_setting hc (Build.lift_eq_ok.1 hs).1
  refine .bind (.shaders ha hs' m.id s.pass.label {}) fun r _ _ _ => ?_
  refine .bind (.lift _) fun spec _ _ _ => ?_
  refine .bind (.layout spec) fun layout _ _ _ => ?_
  refine .bind (.lift _) fun vertexFormat? _ _ _ => ?_
  exact .bind (.pipeline _) fun pipeline _ _ _ => .lift (.ok _)

/-- What a build that succeeds was planned as. -/
theorem plan_of_build (ha : ToldApart tools.reflect codes)
    (hc : Compiles tools src codes m.shaders) (hw : w.Sound tools codes)
    (hb : (m.build tools src states pass config).run w = (.ok p, w')) :
    ∃ plan, m.plan tools src states pass config = .ok plan ∧ plan.spec = p.spec ∧
      w'.layouts.entries.value? p.spec.hash = some (p.spec, p.layout) ∧
      ∃ device, (tools.backend.createPipeline (plan.descriptor m config p.layout) device).1 =
        .ok p.pipeline := by
  obtain ⟨s, l, stages, w₁, w₂, vf, hs, hsh, hf, hl, hv, hp, -⟩ := build_eq_ok.1 hb
  obtain ⟨reflections, calls, hfaith, hrun⟩ :=
    run_shaders ha (compiles_of_setting hc hs) hw.faithful m.id s.pass.label {}
  -- the shaders, the layout and the pipeline of the build are those of the plan
  obtain ⟨hplan, rfl⟩ := Prod.mk.inj (hrun.symm.trans hsh)
  obtain ⟨calls', hlay⟩ := Build.run_layout tools p.spec { w with reflections, calls }
  obtain ⟨hlayout, rfl⟩ := Prod.mk.inj (hlay.symm.trans hl)
  obtain ⟨hpipe, rfl⟩ := Prod.mk.inj ((Build.run_pipeline tools _ _).symm.trans hp)
  refine ⟨⟨s, stages, p.spec, vf⟩, ?_, rfl, ?_, _, hpipe⟩
  · exact plan_eq_ok.2 ⟨l, hs, hplan, hf, hv⟩
  · exact (hw.made.getOrCreate w.device p.spec).2.2 p.layout hlayout

/-- A plan whose layout is made and whose pipeline the backend takes is built. -/
theorem build_of_plan {pl : Plan} {layout : GpuLayout} (ha : ToldApart tools.reflect codes)
    (hc : Compiles tools src codes m.shaders) (hw : w.Sound tools codes)
    (hplan : m.plan tools src states pass config = .ok pl)
    (hlayout : (w.layouts.getOrCreate tools.backend w.device pl.spec).result = .ok layout)
    (htake : ∀ device, ∃ pipeline,
      (tools.backend.createPipeline (pl.descriptor m config layout) device).1 = .ok pipeline) :
    ∃ p w', (m.build tools src states pass config).run w = (.ok p, w') ∧ p.spec = pl.spec := by
  obtain ⟨s, stages, spec, vf⟩ := pl
  obtain ⟨l, hs, hsh, hf, hv⟩ := plan_eq_ok.1 hplan
  dsimp only at hs hsh hf hv
  obtain ⟨reflections, calls, -, hrun⟩ :=
    run_shaders ha (compiles_of_setting hc hs) hw.faithful m.id s.pass.label {}
  rw [hsh] at hrun
  have hlay : ∃ w₂, (Build.layout tools spec).run { w with reflections, calls } =
      (.ok layout, w₂) := by
    obtain ⟨calls', h⟩ := Build.run_layout tools spec { w with reflections, calls }
    exact ⟨_, h.trans (Prod.ext hlayout rfl)⟩
  obtain ⟨w₂, hlay⟩ := hlay
  obtain ⟨pipeline, hpipe⟩ := htake w₂.device
  have hrun' := Build.run_pipeline tools
    (s.descriptor (m.pipelineLabel s.pass config) stages vf layout) w₂
  let p : CompiledPipeline := {
    hash := PipelineHash.ofRequest m pass config.name, material := m.id, pass? := s.pass.name?
    renderPass := config.name, pipeline, layout, spec }
  exact ⟨p, _, build_eq_ok.2 ⟨s, l, stages, _, w₂, vf, hs, hrun, hf, hlay, hv,
    hrun'.trans (Prod.ext hpipe rfl), rfl, rfl, rfl, rfl⟩, rfl⟩

end Material

end Following

end RenderMaterials
