import RenderMaterials.Proofs.Layout.Caching
import RenderMaterials.Proofs.Material.WellFormed
import RenderMaterials.Proofs.Pipeline.Faults
import RenderMaterials.Proofs.Shader.Compiling

/-!
# Building pipelines — what the backend is asked for

The last step of a build asks the backend for a pipeline.  By then the stages of the pass have been
checked as they are declared; the backend sees the stages of the code.  Both are the same, since a
shader's profile belongs to its stage and a compiler makes code of the stage that the profile names.

* `Pass.checkStages_eq_ok`: the passes whose stages can be put together; `Material.Prepared`: with
  the names of state blocks, what is checked before any tool is called.
* `Workshop.Asked`: the pipelines that the backend was asked for between two moments.
* `Gathers`: the code and the bindings of the shaders of a pass, as the reflection cache gives them;
  `Build.gathers_of_shaders`: they are joined into the layout.
* `Descriptor.Suits`: what the backend can rely on.
* `Material.asked_of_build`: a build fails without asking the backend for a pipeline, or comes to
  its last step.
* `Material.build_asks`: what a build asks for, whatever the caches hold and however it ends.
-/

namespace RenderMaterials

variable {σ α β : Type} {tools : Toolchain σ} {src : Source}

/-! ### Stages of code -/

/-- The stage that accepts a profile is the one that the profile names. -/
theorem Stage.ofProfile?_of_acceptsProfile {s : Stage} {profile : String}
    (h : s.acceptsProfile profile = true) : ofProfile? profile = some s := by
  unfold acceptsProfile at h
  split at h
  · next lead major minor hparts =>
      simp only [Bool.and_eq_true, decide_eq_true_eq] at h
      rw [ofProfile?, hparts, List.head?_cons, h.1.1]
      cases s <;> decide
  · cases h

/-- The code that a compiler makes is of the stage that the profile names. -/
def Compiler.StagesByProfile (compile : Compiler) : Prop :=
  ∀ src r code, compile src r = .ok code → Stage.ofProfile? r.profile = some code.stage

theorem Translator.stagesByProfile_compiler (t : Translator) :
    Compiler.StagesByProfile t.compiler := by
  intro src r code h
  obtain ⟨stage, _, _, _, _, hstage, -, -, -, -, -, rfl⟩ :=
    Shader.compile_eq_ok.1 (compiler_eq_ok.1 h)
  exact hstage

/-! ### What is checked before any tool is called -/

namespace Pass

variable {p : Pass}

/-- The stages of a pass can be put together: a compute shader alone, or a vertex shader among
others none of which is a compute shader. -/
def Staged (p : Pass) : Prop :=
  p.shaders.map (·.stage) = [.compute] ∨
    .vertex ∈ p.shaders.map (·.stage) ∧ .compute ∉ p.shaders.map (·.stage)

theorem checkStages_eq_ok {material : String} :
    p.checkStages material = .ok () ↔ p.Staged := by
  have hhas : ∀ s : Stage, (p.shaders.any fun r => decide (r.stage = s)) = true ↔
      s ∈ p.shaders.map (·.stage) := by simp
  unfold checkStages Staged
  simp only [hhas]
  split
  · next hcompute =>
      -- a compute shader is there, so it has to be the only one
      rw [ite_eq_right_iff]
      simp only [reduceCtorEq, imp_false, Nat.not_lt, hcompute, not_true, and_false, or_false]
      rw [← List.length_map (f := (·.stage))]
      constructor
      · intro hlen
        obtain ⟨s, hs⟩ := List.length_eq_one_iff.1
          (Nat.le_antisymm hlen (List.length_pos_of_mem hcompute))
        rw [hs] at hcompute ⊢
        rw [List.mem_singleton.1 hcompute]
      · intro h
        rw [h]
        decide
  · next hcompute =>
      have hnot : p.shaders.map (·.stage) ≠ [.compute] := fun e => hcompute (by simp [e])
      simp [hcompute, hnot]

end Pass

namespace StateBlock

variable [StateBlock α] {blocks : Table String α} {id : Option String} {referrer : String}

/-- A block that is found is declared. -/
theorem declares_of_find {b : α} (h : find blocks id referrer = .ok b) : Declares blocks id := by
  intro i hi
  obtain rfl := Option.mem_def.1 hi
  cases hb : blocks.value? i with
  | none => simp [find, hb] at h
  | some b' => simp [Table.has, hb]

end StateBlock

namespace Material

variable {states : StateRegistry} {m : Material} {pass : Option String} {config : RenderPassConfig}

/-- A build comes to its tools when its request selects a pass whose stages can be put together and
whose state blocks are declared. -/
def Prepared (states : StateRegistry) (m : Material) (pass : Option String) : Prop :=
  ∃ p, m.resolvePass pass = .ok p ∧ p.Staged ∧ p.Declared states

theorem prepared_of_setting {s : Setting} (h : m.setting states pass config = .ok s) :
    m.Prepared states pass ∧ s.pass.Staged := by
  have hpass := resolvePass_of_setting h
  obtain ⟨p, hp, h⟩ := Result.bind_eq_ok.1 h
  obtain rfl := Except.ok.inj (hp.symm.trans hpass)
  obtain ⟨u, hstages, h⟩ := Result.bind_eq_ok.1 h
  obtain ⟨rasterizer, hr, h⟩ := Result.bind_eq_ok.1 h
  obtain ⟨depthStencil, hd, h⟩ := Result.bind_eq_ok.1 h
  obtain ⟨blend, hb, h⟩ := Result.bind_eq_ok.1 h
  have hstaged := Pass.checkStages_eq_ok.1 hstages
  have ht : StateBlock.Declares states.renderTarget s.pass.states.renderTarget := by
    split at h
    · obtain ⟨renderTarget, ht, -⟩ := Result.bind_eq_ok.1 h
      exact StateBlock.declares_of_find ht
    · next hnone =>
        rw [Option.isSome_iff_ne_none, not_not] at hnone
        simp [StateBlock.Declares, hnone]
  exact ⟨⟨s.pass, hp, hstaged, ⟨StateBlock.declares_of_find hr, StateBlock.declares_of_find hd,
    StateBlock.declares_of_find hb, ht⟩⟩, hstaged⟩

/-- Without that, nothing is done at all. -/
theorem build_of_not_prepared (h : ¬ m.Prepared states pass) (w : Workshop σ) :
    ∃ e, (m.build tools src states pass config).run w = (.error e, w) := by
  cases hs : m.setting states pass config with
  | ok s => exact absurd (prepared_of_setting hs).1 h
  | error e => exact ⟨e, by rw [build, Build.run_bind, Build.run_lift, hs]⟩

end Material

/-! ### Pipelines that are asked for -/

/-- The descriptor that a call hands to the backend. -/
def ToolCall.descriptor? : ToolCall → Option Descriptor
  | .pipeline d => some d
  | _           => none

/-- Between two moments the backend was asked for certain pipelines, and for no others. -/
def Workshop.Asked (w w' : Workshop σ) (ds : List Descriptor) : Prop :=
  ∃ new, w'.calls = w.calls ++ new ∧ new.filterMap ToolCall.descriptor? = ds

namespace Workshop.Asked

variable {w w₁ w₂ : Workshop σ} {ds ds' : List Descriptor}

theorem of_calls_eq (h : w₁.calls = w.calls) : Asked w w₁ [] := ⟨[], by simp [h], rfl⟩

theorem of_call (c : ToolCall) (h : w₁.calls = w.calls ++ [c]) :
    Asked w w₁ c.descriptor?.toList :=
  ⟨[c], h, by cases hc : c.descriptor? <;> simp [hc]⟩

theorem trans (h : Asked w w₁ ds) (h' : Asked w₁ w₂ ds') : Asked w w₂ (ds ++ ds') := by
  obtain ⟨new, hcalls, rfl⟩ := h
  obtain ⟨new', hcalls', rfl⟩ := h'
  exact ⟨new ++ new', by rw [hcalls', hcalls, List.append_assoc], List.filterMap_append⟩

end Workshop.Asked

namespace Build

variable {w w' : Workshop σ}

/-- A step that asks the backend for no pipeline. -/
def Quiet (x : Build σ α) : Prop := ∀ w : Workshop σ, w.Asked (x.run w).2 []

namespace Quiet

variable {x : Build σ α} {a : Except MaterialError α}

theorem after (h : Quiet x) (hr : x.run w = (a, w')) : w.Asked w' [] := by
  have := h w
  rwa [hr] at this

theorem lift (r : Except MaterialError α) : Quiet (Build.lift r : Build σ α) :=
  fun _ => .of_calls_eq rfl

theorem bind {f : α → Build σ β} (hx : Quiet x) (hf : ∀ a, Quiet (f a)) : Quiet (x >>= f) := by
  intro w
  rw [run_bind]
  rcases hr : x.run w with ⟨e | a, w₁⟩
  · exact hx.after hr
  · exact (hx.after hr).trans (hf a w₁)

/-- A build that begins with such a step ends with it, or goes on from there. -/
theorem cases {f : α → Build σ β} {r : Except MaterialError β} (hx : Quiet x)
    (h : (x >>= f).run w = (r, w')) :
    (∃ e, r = .error e) ∧ w.Asked w' [] ∨
      ∃ a w₁, x.run w = (.ok a, w₁) ∧ w.Asked w₁ [] ∧ (f a).run w₁ = (r, w') := by
  rw [run_bind] at h
  rcases hr : x.run w with ⟨e | a, w₁⟩
  · rw [hr] at h
    obtain ⟨rfl, rfl⟩ := Prod.mk.inj h
    exact .inl ⟨⟨e, rfl⟩, hx.after hr⟩
  · rw [hr] at h
    exact .inr ⟨a, w₁, rfl, hx.after hr, h⟩

theorem lift_cases {x : Except MaterialError α} {f : α → Build σ β} {r : Except MaterialError β}
    (h : (Build.lift x >>= f).run w = (r, w')) :
    (∃ e, r = .error e) ∧ w.Asked w' [] ∨ ∃ a, x = .ok a ∧ (f a).run w = (r, w') := by
  rcases (lift x).cases h with h | ⟨a, w₁, hx, -, h⟩
  · exact .inl h
  · obtain ⟨rfl, hw⟩ := lift_eq_ok.1 hx
    exact .inr ⟨a, rfl, hw ▸ h⟩

theorem compile (material pass : String) (s : ShaderReference) :
    Quiet (Build.compile tools src material pass s) := by
  intro w
  rw [run_compile_calls]
  exact .of_call (.compile s.request) rfl

theorem reflect (code : Bytecode) (identity : String) :
    Quiet (Build.reflect tools code identity) := by
  intro w
  rw [run_reflect_calls]
  cases (w.reflections.getOrReflect tools.reflect code identity).asked with
  | true => exact .of_call (.reflect code) rfl
  | false => exact .of_calls_eq rfl

theorem layout (spec : LayoutSpec) : Quiet (Build.layout tools spec) := by
  intro w
  rw [run_layout_calls]
  cases (w.layouts.getOrCreate tools.backend w.device spec).asked? with
  | none => exact .of_calls_eq rfl
  | some native => exact .of_call (.layout native) rfl

theorem shaders (material pass : String) (l : LayoutBuilder) (ss : List ShaderReference) :
    Quiet (Build.shaders tools src material pass l ss) := by
  induction ss generalizing l with
  | nil => exact .lift (.ok (l, []))
  | cons s ss ih =>
      refine bind (compile material pass s) fun code => ?_
      refine bind (reflect code s.identity) fun bindings => ?_
      refine bind (lift _) fun _ => ?_
      exact bind (ih _) fun r => lift (.ok _)

end Quiet

/-- The last step of a build: the backend is asked for a pipeline, and no layout changes. -/
theorem asked_of_pipeline {d : Descriptor} {f : GpuPipeline → α} {r : Except MaterialError α}
    (h : (pipeline tools d >>= fun x => pure (f x)).run w = (r, w')) :
    w.Asked w' [d] ∧ w'.layouts = w.layouts ∧ ∀ a, r = .ok a → ∃ x, a = f x := by
  rw [run_bind, run_pipeline] at h
  cases hx : (tools.backend.createPipeline d w.device).1 with
  | error e =>
      rw [hx] at h
      obtain ⟨rfl, rfl⟩ := Prod.mk.inj h
      exact ⟨.of_call (.pipeline d) rfl, rfl, fun a ha => by cases ha⟩
  | ok x =>
      rw [hx] at h
      obtain ⟨rfl, rfl⟩ := Prod.mk.inj h
      exact ⟨.of_call (.pipeline d) rfl, rfl, fun a ha => ⟨x, (Except.ok.inj ha).symm⟩⟩

end Build

/-! ### The layout of a pass -/

/-- The code of shaders, and the bindings that a reflection cache has for each of them in turn. -/
inductive Gathers (tools : Toolchain σ) (src : Source) :
    ReflectionCache → List ShaderReference → List Bytecode → List (List Binding) → Prop
  | nil (c : ReflectionCache) : Gathers tools src c [] [] []
  | cons {c : ReflectionCache} {s : ShaderReference} {ss : List ShaderReference} {code : Bytecode}
      {codes : List Bytecode} {bs : List Binding} {bss : List (List Binding)} :
      tools.compile src s.request = .ok code →
      (c.getOrReflect tools.reflect code s.identity).result = .ok bs →
      Gathers tools src (c.getOrReflect tools.reflect code s.identity).cache ss codes bss →
      Gathers tools src c (s :: ss) (code :: codes) (bs :: bss)

/-- The code of shaders is of their stages. -/
theorem Gathers.stages {c : ReflectionCache} {ss : List ShaderReference} {codes : List Bytecode}
    {bss : List (List Binding)} (hc : Compiler.StagesByProfile tools.compile)
    (hs : ∀ s ∈ ss, s.stage.acceptsProfile s.profile = true)
    (h : Gathers tools src c ss codes bss) :
    codes.map (·.stage) = ss.map (·.stage) := by
  induction h with
  | nil c => rfl
  | @cons c s ss code codes bs bss hcode _ _ ih =>
      have hstage : some code.stage = some s.stage := (hc src s.request code hcode).symm.trans
        (Stage.ofProfile?_of_acceptsProfile (hs s (by simp)))
      rw [List.map_cons, List.map_cons, ih fun t ht => hs t (by simp [ht]),
        Option.some.inj hstage]

/-- What the shaders of a pass bind is joined into the layout, and they change no layout cache. -/
theorem Build.gathers_of_shaders {w w' : Workshop σ} {material pass : String}
    {ss : List ShaderReference} {l l' : LayoutBuilder} {codes : List Bytecode} {seen : List Binding}
    (hj : Joined seen l.bindings)
    (h : (shaders tools src material pass l ss).run w = (.ok (l', codes), w')) :
    ∃ bss, Gathers tools src w.reflections ss codes bss ∧
      Joined (bss.flatten.reverse ++ seen) l'.bindings := by
  induction ss generalizing l codes seen w with
  | nil =>
      obtain ⟨e, -⟩ := Prod.ext_iff.1 h
      obtain ⟨rfl, rfl⟩ := Prod.mk.inj (Except.ok.inj e)
      exact ⟨[], .nil w.reflections, hj⟩
  | cons s ss ih =>
      obtain ⟨code, w₁, hcode, h⟩ := bind_eq_ok.1 h
      obtain ⟨bs, w₂, hbs, h⟩ := bind_eq_ok.1 h
      obtain ⟨u, w₃, hadd, h⟩ := bind_eq_ok.1 h
      obtain ⟨⟨l₁, rest⟩, w₄, hrest, hret⟩ := bind_eq_ok.1 h
      obtain ⟨calls, hrun⟩ := run_compile tools src material pass s w
      obtain ⟨hmade, rfl⟩ := Prod.mk.inj (hrun.symm.trans hcode)
      obtain ⟨calls', hrun'⟩ := run_reflect tools code s.identity { w with calls }
      obtain ⟨hfound, rfl⟩ := Prod.mk.inj (hrun'.symm.trans hbs)
      obtain ⟨hadd, rfl⟩ := lift_eq_ok.1 hadd
      obtain ⟨e, rfl⟩ := Prod.ext_iff.1 hret
      obtain ⟨rfl, rfl⟩ := Prod.mk.inj (Except.ok.inj e)
      have hj' : Joined (bs.reverse ++ seen) (l.add bs).1.bindings := by
        rcases hj.add bs with ⟨l₂, hok, hj'⟩ | ⟨⟨l₂, name, old, new, herr⟩, -⟩
        · rwa [hok]
        · rw [herr] at hadd
          cases hadd
      obtain ⟨bss, hg, hjoined⟩ := ih hj' hrest
      refine ⟨bs :: bss, .cons (Result.mapError_eq_ok.1 hmade) hfound hg, ?_⟩
      rwa [List.flatten_cons, List.reverse_append, List.append_assoc]

/-- The layout of a pass says what all the bindings together say, and each has a slot in it. -/
theorem Pass.united_of_finish {p : Pass} {l : LayoutBuilder} {spec : LayoutSpec}
    {bss : List (List Binding)} (hj : Joined (bss.flatten.reverse ++ []) l.bindings)
    (h : p.finish l = .ok spec) :
    United (bss.flatten ++ p.bindings) spec.bindings ∧
      ∀ b ∈ spec.bindings, b.slot.isSome = true := by
  unfold finish at h
  rcases hj.add p.bindings with ⟨l', hok, hj'⟩ | ⟨⟨l', name, old, new, herr⟩, -⟩
  · rw [hok] at h
    obtain rfl := Except.ok.inj h
    have hall : Joined (bss.flatten ++ p.bindings) l'.bindings :=
      hj'.congr fun b => by simp [or_comm]
    exact hall.build
  · rw [herr] at h
    cases h

/-! ### The last step -/

/-- A descriptor of a compute pipeline. -/
structure Descriptor.OfCompute (d : Descriptor) : Prop where
  stages       : d.stages.map (·.stage) = [.compute]
  vertexFormat : d.vertexFormat? = none
  isCompute    : d.isCompute = true

/-- A descriptor of a pipeline that draws. -/
structure Descriptor.OfGraphics (d : Descriptor) : Prop where
  vertex       : .vertex ∈ d.stages.map (·.stage)
  compute      : .compute ∉ d.stages.map (·.stage)
  vertexFormat : d.vertexFormat?.isSome = true
  isCompute    : d.isCompute = false

/-- A descriptor suits a pass that is built with certain reflections, and the layouts that are there
in the end. -/
structure Descriptor.Suits (tools : Toolchain σ) (src : Source) (p : Pass)
    (reflections : ReflectionCache) (layouts : LayoutCache) (d : Descriptor) : Prop where
  /-- One stage for each shader, in their order. -/
  stages   : d.stages.map (·.stage) = p.shaders.map (·.stage)
  distinct : (d.stages.map (·.stage)).Nodup
  purpose  : d.OfCompute ∨ d.OfGraphics
  /-- The layout is kept for what the shaders and the pass bind, with a slot for each name. -/
  layout   : ∃ bss spec, Gathers tools src reflections p.shaders d.stages bss ∧
    United (bss.flatten ++ p.bindings) spec.bindings ∧
    (∀ b ∈ spec.bindings, b.slot.isSome = true) ∧
    layouts.entries.value? spec.hash = some (spec, d.layout)

theorem Pass.isCompute_iff {p : Pass} : p.isCompute = true ↔
    p.shaders.map (·.stage) ≠ [] ∧ ∀ s ∈ p.shaders.map (·.stage), s = .compute := by
  simp [isCompute]

theorem Descriptor.isCompute_iff {d : Descriptor} : d.isCompute = true ↔
    d.stages.map (·.stage) ≠ [] ∧ ∀ s ∈ d.stages.map (·.stage), s = .compute := by
  simp [isCompute]

namespace Material

variable {states : StateRegistry} {m : Material} {pass : Option String} {config : RenderPassConfig}
  {w w' : Workshop σ}

/-- What is declared for compute is compute code without a vertex format, and the rest draws. -/
theorem purpose_of_vertices {p : Pass} {d : Descriptor} (hp : p.Staged)
    (hd : d.stages.map (·.stage) = p.shaders.map (·.stage))
    (h : m.vertices states p = .ok d.vertexFormat?) : d.OfCompute ∨ d.OfGraphics := by
  have hsame : p.isCompute = d.isCompute := by
    rw [Bool.eq_iff_iff, Pass.isCompute_iff, Descriptor.isCompute_iff, hd]
  unfold vertices at h
  rcases hp with hcompute | ⟨hvertex, hcompute⟩
  · have hc : p.isCompute = true := by simp [Pass.isCompute_iff, hcompute]
    rw [if_pos hc] at h
    exact .inl ⟨hd.trans hcompute, (Except.ok.inj h).symm, hsame.symm.trans hc⟩
  · have hc : p.isCompute = false := by
      rw [Bool.eq_false_iff, ne_eq, Pass.isCompute_iff]
      exact fun h => absurd (h.2 _ hvertex) (by decide)
    rw [if_neg (by simp [hc])] at h
    obtain ⟨v, -, hv⟩ := Result.map_eq_ok.1 h
    exact .inr ⟨hd ▸ hvertex, hd ▸ hcompute, hv ▸ rfl, hsame.symm.trans hc⟩

/-- What the parts of a build that succeed before its last step make is a descriptor that suits the
pass. -/
theorem suits_of_parts {s : Setting} {l : LayoutBuilder} {stages : List Bytecode}
    {w₁ w₂ : Workshop σ} {spec : LayoutSpec} {layout : GpuLayout}
    {vertexFormat? : Option VertexFormat} {label : String} {read : Source}
    (hc : Compiler.StagesByProfile tools.compile) (hp : s.pass.WellFormed read)
    (hstaged : s.pass.Staged)
    (hshaders : (Build.shaders tools src m.id s.pass.label {} s.pass.shaders).run w =
      (.ok (l, stages), w₁))
    (hfinish : s.pass.finish l = .ok spec)
    (hlayout : (Build.layout tools spec).run w₁ = (.ok layout, w₂))
    (hvertices : m.vertices states s.pass = .ok vertexFormat?) :
    (s.descriptor label stages vertexFormat? layout).Suits tools src s.pass w.reflections
      w₂.layouts := by
  obtain ⟨bss, hg, hj⟩ := Build.gathers_of_shaders .empty hshaders
  have hstages : stages.map (·.stage) = s.pass.shaders.map (·.stage) :=
    hg.stages hc fun r hr => (hp.shaders.each r hr).profile
  obtain ⟨hunited, hslots⟩ := Pass.united_of_finish hj hfinish
  obtain ⟨calls, hrun⟩ := Build.run_layout tools spec w₁
  obtain ⟨hresult, rfl⟩ := Prod.mk.inj (hrun.symm.trans hlayout)
  exact ⟨hstages, hstages ▸ hp.shaders.nodup, purpose_of_vertices hstaged hstages hvertices,
    bss, spec, hg, hunited, hslots, LayoutCache.entry_of_getOrCreate hresult⟩

/-- A build fails without asking the backend for a pipeline, or comes to its last step: then it asks
for one pipeline, which suits the pass, and gives back its layout. -/
theorem asked_of_build {ctx : ReadContext} {v : Json} {r : Except MaterialError CompiledPipeline}
    (hm : Material.read ctx v = .ok m) (hc : Compiler.StagesByProfile tools.compile)
    (hb : (m.build tools src states pass config).run w = (r, w')) :
    (∃ e, r = .error e) ∧ w.Asked w' [] ∨
      ∃ p d, m.resolvePass pass = .ok p ∧ d.Suits tools src p w.reflections w'.layouts ∧
        w.Asked w' [d] ∧ ∀ q, r = .ok q → q.layout = d.layout := by
  rcases Build.Quiet.lift_cases hb with h | ⟨s, hs, hb⟩
  · exact .inl h
  have hpass := resolvePass_of_setting hs
  have hp := (passes_of_read hm).2 s.pass (mem_passes_of_resolvePass hpass)
  rcases (Build.Quiet.shaders _ _ _ _).cases hb with h | ⟨⟨l, stages⟩, w₁, hshaders, h₁, hb⟩
  · exact .inl h
  rcases Build.Quiet.lift_cases hb with ⟨he, ha⟩ | ⟨spec, hfinish, hb⟩
  · exact .inl ⟨he, h₁.trans ha⟩
  rcases (Build.Quiet.layout spec).cases hb with ⟨he, ha⟩ | ⟨layout, w₂, hlayout, h₂, hb⟩
  · exact .inl ⟨he, h₁.trans ha⟩
  rcases Build.Quiet.lift_cases hb with ⟨he, ha⟩ | ⟨vertexFormat?, hvertices, hb⟩
  · exact .inl ⟨he, (h₁.trans h₂).trans ha⟩
  have hsuits : (s.descriptor (m.pipelineLabel s.pass config) stages vertexFormat? layout).Suits
      tools src s.pass w.reflections w₂.layouts :=
    suits_of_parts hc hp (prepared_of_setting hs).2 hshaders hfinish hlayout hvertices
  obtain ⟨hasked, hlayouts, hok⟩ := Build.asked_of_pipeline hb
  refine .inr ⟨s.pass, _, hpass, hlayouts ▸ hsuits, (h₁.trans h₂).trans hasked, fun q hq => ?_⟩
  obtain ⟨pipeline, rfl⟩ := hok q hq
  rfl

/-- A build asks the backend for nothing that does not suit.  For every material that was read, and
whatever the state blocks, the render pass and the caches are: a build that succeeds has asked for
one pipeline, and one that fails for one or none.  The descriptor has one stage for each shader of
the pass, no two alike; it is of one compute stage and without a vertex format, or of a vertex stage
among others that are not compute and with a vertex format; and its layout is the one that is kept
for all that is bound.  A build that selects no pass, or one whose stages cannot be put together or
whose state blocks are not declared, leaves the workshop as it was. -/
theorem build_asks {ctx : ReadContext} {v : Json} (hm : Material.read ctx v = .ok m)
    (hc : Compiler.StagesByProfile tools.compile) (src : Source) (states : StateRegistry)
    (pass : Option String) (config : RenderPassConfig) (w : Workshop σ) :
    (∀ r w', (m.build tools src states pass config).run w = (r, w') →
      (∃ e, r = .error e) ∧ w.Asked w' [] ∨
        ∃ p d, m.resolvePass pass = .ok p ∧ d.Suits tools src p w.reflections w'.layouts ∧
          w.Asked w' [d] ∧ ∀ q, r = .ok q → q.layout = d.layout) ∧
    (¬ m.Prepared states pass →
      ∃ e, (m.build tools src states pass config).run w = (.error e, w)) :=
  ⟨fun _ _ hb => asked_of_build hm hc hb, fun h => build_of_not_prepared h w⟩

/-! ### A pass that is built and one that is not -/

namespace ForwardAndOverlay

/-- The overlay has no vertex shader. -/
def json : Json :=
  let pixel := ("pixel", .object [("file", .text "lit.wgsl"), ("profile", .text "ps_6_0")])
  .object [("id", .text "m"), ("passes", .array [
    .object [("name", .text "forward"),
      ("shaders", .object
        [("vertex", .object [("file", .text "lit.wgsl"), ("profile", .text "vs_6_0")]), pixel]),
      ("bindings", .array [.object [("name", .text "albedo"), ("kind", .text "srv")]])],
    .object [("name", .text "overlay"), ("shaders", .object [pixel])]])]

/-- Code is known by its stage, and all of it reads the camera. -/
def toolchain : Toolchain Counts where
  compile _ r := match Stage.ofProfile? r.profile with
    | some stage => .ok ⟨stage, r.entry, []⟩
    | none       => .error "unknown profile"
  reflect code := .ok [⟨"camera", .constantBuffer, some 0, .single code.stage⟩]
  backend := .simulated

theorem stagesByProfile_compile : Compiler.StagesByProfile toolchain.compile := by
  intro src r code h
  simp only [toolchain] at h
  split at h
  · next stage hstage =>
      obtain rfl := Except.ok.inj h
      exact hstage
  · cases h

def start : Workshop Counts := { device := {} }

/-- The build of a pass. -/
def run (m : Material) (pass : String) : Except MaterialError CompiledPipeline × Workshop Counts :=
  (m.build toolchain TwoPasses.context.source {} (some pass) ⟨"main", {}⟩).run start

theorem exists_read : ∃ m p, Material.read TwoPasses.context json = .ok m ∧
    (∃ q, (run m "forward").1 = .ok q) ∧ m.resolvePass (some "overlay") = .ok p ∧
    p.shaders.map (·.stage) = [.pixel] := by
  have h : (Material.read TwoPasses.context json).toOption.any (fun m =>
      (run m "forward").1.isOk && (m.resolvePass (some "overlay")).toOption.any fun p =>
        p.shaders.map (·.stage) = [.pixel]) = true := by decide +kernel
  obtain ⟨m, hm, h⟩ := (Option.any_eq_true _ _).1 h
  obtain ⟨hq, hp⟩ := Bool.and_eq_true_iff.1 h
  obtain ⟨p, hp, hstages⟩ := (Option.any_eq_true _ _).1 hp
  exact ⟨m, p, Result.toOption_eq_some.1 hm, Result.isOk_iff.1 hq, Result.toOption_eq_some.1 hp,
    of_decide_eq_true hstages⟩

/-- The backend is asked for the one pipeline, and nothing is done for the other. -/
theorem forward_asked : ∃ m, Material.read TwoPasses.context json = .ok m ∧
    (∃ p d q w', run m "forward" = (.ok q, w') ∧ start.Asked w' [d] ∧ q.layout = d.layout ∧
      d.Suits toolchain TwoPasses.context.source p start.reflections w'.layouts) ∧
    ∃ e, run m "overlay" = (.error e, start) := by
  obtain ⟨m, p, hm, ⟨q, hq⟩, hp, hstages⟩ := exists_read
  have hasks := build_asks hm stagesByProfile_compile TwoPasses.context.source {}
  refine ⟨m, hm, ?_, (hasks (some "overlay") ⟨"main", {}⟩ start).2 ?_⟩
  · have hrun : run m "forward" = (.ok q, (run m "forward").2) := Prod.ext hq rfl
    rcases (hasks (some "forward") ⟨"main", {}⟩ start).1 _ _ hrun with
      ⟨⟨e, he⟩, -⟩ | ⟨p, d, -, hd, hasked, hlayout⟩
    · cases he
    · exact ⟨p, d, q, _, hrun, hasked, hlayout q rfl, hd⟩
  · rintro ⟨p', hp', hstaged, -⟩
    obtain rfl := Except.ok.inj (hp.symm.trans hp')
    simp [Pass.Staged, hstages] at hstaged

end ForwardAndOverlay

end Material

end RenderMaterials
