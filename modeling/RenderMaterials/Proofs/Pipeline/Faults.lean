import RenderMaterials.Proofs.Layout.Merging
import RenderMaterials.Proofs.Pipeline.Building

/-!
# Building pipelines — faults

A build looks names up, checks stages, and asks its tools.  When the names in a pass are declared,
nothing is left to fail but the stages, the tools and the layout.

* `StateBlock.exists_find`: a block is found when its id is declared.
* `Build.FailsOnly`: the errors that a step can end in; `FailsOnly.bind` puts steps together.
* `Material.build_failsOnly`: the errors that the build of a pass with declared names can end in.
-/

namespace RenderMaterials

variable {σ α β : Type} {tools : Toolchain σ}

/-! ### Kinds of errors -/

namespace MaterialError

/-- The errors of building itself. -/
def isBuildFault : MaterialError → Bool
  | missingVertexShader .. => true
  | mixedComputeStages ..  => true
  | shaderCompilation ..   => true
  | reflection ..          => true
  | duplicateBinding ..    => true
  | layoutTooLarge ..      => true
  | layoutCollision ..     => true
  | hashCollision ..       => true
  | _                      => false

/-- The errors of names that are those of nothing, or of nothing in particular. -/
def isReferenceFault : MaterialError → Bool
  | missingStateBlock .. => true
  | unknownRenderPass .. => true
  | unknownPass ..       => true
  | ambiguousPass ..     => true
  | unknownMaterial ..   => true
  | _                    => false

theorem isReferenceFault_of_isBuildFault {e : MaterialError} (h : e.isBuildFault = true) :
    e.isReferenceFault = false := by
  cases e <;> simp_all [isBuildFault, isReferenceFault]

end MaterialError

namespace Backend

/-- An error that a backend can give as its answer. -/
def Answers (b : Backend σ) (e : MaterialError) : Prop :=
  ∃ device, (∃ native, (b.createLayout native device).1 = .error e) ∨
    ∃ descriptor, (b.createPipeline descriptor device).1 = .error e

theorem not_simulated_answers (e : MaterialError) : ¬ simulated.Answers e := by
  rintro ⟨device, ⟨native, h⟩ | ⟨descriptor, h⟩⟩
  · cases h
  · cases h

end Backend

/-! ### Declared names -/

namespace StateBlock

variable [StateBlock α] {blocks : Table String α} {id : Option String}

/-- A name that is given is that of a block. -/
def Declares (blocks : Table String α) (id : Option String) : Prop :=
  ∀ i ∈ id, blocks.has i = true

/-- A declared block is found, whoever refers to it. -/
theorem exists_find (h : Declares blocks id) :
    ∃ b, ∀ referrer, find blocks id referrer = .ok b := by
  cases id with
  | none => exact ⟨initial, fun _ => rfl⟩
  | some i =>
      obtain ⟨b, hb⟩ := Option.isSome_iff_exists.1 (h i rfl)
      exact ⟨b, fun referrer => by simp only [find, hb]⟩

end StateBlock

/-- The names of state blocks in a pass are declared. -/
structure Pass.Declared (states : StateRegistry) (p : Pass) : Prop where
  rasterizer   : StateBlock.Declares states.rasterizer p.states.rasterizer
  depthStencil : StateBlock.Declares states.depthStencil p.states.depthStencil
  blend        : StateBlock.Declares states.blend p.states.blend
  renderTarget : StateBlock.Declares states.renderTarget p.states.renderTarget

/-! ### Steps of a build -/

namespace Build

variable {P : MaterialError → Prop} {x : Build σ α} {f : α → Build σ β}

/-- A step fails with certain errors only. -/
def FailsOnly (P : MaterialError → Prop) (x : Build σ α) : Prop :=
  ∀ w e w', x.run w = (.error e, w') → P e

theorem FailsOnly.bind (hx : FailsOnly P x) (hf : ∀ a, FailsOnly P (f a)) :
    FailsOnly P (x >>= f) := by
  intro w e w' h
  rw [run_bind] at h
  cases hr : x.run w with
  | mk r w₁ =>
      rw [hr] at h
      cases r with
      | error x =>
          obtain rfl := Except.error.inj (Prod.ext_iff.1 h).1
          exact hx w _ w₁ hr
      | ok a => exact hf a w₁ e w' h

theorem FailsOnly.lift {r : Except MaterialError α} (h : ∀ e, r = .error e → P e) :
    FailsOnly P (lift r : Build σ α) :=
  fun _ e _ he => h e (Prod.ext_iff.1 he).1

theorem FailsOnly.pure (a : α) : FailsOnly P (pure a : Build σ α) := by
  intro w e w' h
  cases h

/-- The errors of building, and those that the backend answers with. -/
def Fault (tools : Toolchain σ) (e : MaterialError) : Prop :=
  e.isBuildFault = true ∨ tools.backend.Answers e

theorem failsOnly_compile (src : Source) (material pass : String) (s : ShaderReference) :
    FailsOnly (Fault tools) (compile tools src material pass s) := by
  intro w e w' h
  obtain ⟨calls, hrun⟩ := run_compile tools src material pass s w
  rw [hrun] at h
  have h := (Prod.ext_iff.1 h).1
  cases hc : tools.compile src s.request with
  | ok code => simp [hc, Except.mapError] at h
  | error reason =>
      simp only [hc, Except.mapError, Except.error.injEq] at h
      exact .inl (h ▸ rfl)

theorem failsOnly_reflect (code : Bytecode) (identity : String) :
    FailsOnly (Fault tools) (reflect tools code identity) := by
  intro w e w' h
  obtain ⟨calls, hrun⟩ := run_reflect tools code identity w
  rw [hrun] at h
  have h := (Prod.ext_iff.1 h).1
  simp only [ReflectionCache.getOrReflect] at h
  split at h
  · cases h
  · cases hr : tools.reflect code with
    | ok bindings => simp [hr] at h
    | error reason =>
        simp only [hr, Except.error.injEq] at h
        exact .inl (h ▸ rfl)

theorem failsOnly_layout (spec : LayoutSpec) : FailsOnly (Fault tools) (layout tools spec) := by
  intro w e w' h
  obtain ⟨calls, hrun⟩ := run_layout tools spec w
  rw [hrun] at h
  have h := (Prod.ext_iff.1 h).1
  simp only [LayoutCache.getOrCreate] at h
  split at h
  · split at h
    · cases h
    · exact .inl (Except.error.inj h ▸ rfl)
  · split at h
    · next x hx =>
        simp only [NativeLayout.ofSpec] at hx
        split at hx
        · cases hx
        · obtain rfl := Except.error.inj hx
          exact .inl (Except.error.inj h ▸ rfl)
    · next native _ =>
        split at h
        · next x device hx =>
            obtain rfl := Except.error.inj h
            exact .inr ⟨w.device, .inl ⟨native, by rw [hx]⟩⟩
        · cases h

theorem failsOnly_pipeline (d : Descriptor) : FailsOnly (Fault tools) (pipeline tools d) := by
  intro w e w' h
  rw [run_pipeline] at h
  exact .inr ⟨w.device, .inr ⟨d, (Prod.ext_iff.1 h).1⟩⟩

theorem fault_of_add {l : LayoutBuilder} {bs : List Binding} {e : MaterialError}
    (h : (l.add bs).2 = .error e) : Fault tools e := by
  obtain ⟨name, old, new, rfl⟩ := LayoutBuilder.add_eq_error h
  exact .inl rfl

theorem failsOnly_shaders (src : Source) (material pass : String) (l : LayoutBuilder)
    (ss : List ShaderReference) :
    FailsOnly (Fault tools) (shaders tools src material pass l ss) := by
  induction ss generalizing l with
  | nil => exact .pure _
  | cons s ss ih =>
      refine (failsOnly_compile src material pass s).bind fun code => ?_
      refine (failsOnly_reflect code s.identity).bind fun bindings => ?_
      refine FailsOnly.bind (.lift fun e => fault_of_add) fun _ => ?_
      exact (ih _).bind fun _ => .pure _

end Build

/-! ### The whole build -/

theorem Pass.checkStages_error {material : String} {p : Pass} {e : MaterialError}
    (h : p.checkStages material = .error e) : e.isBuildFault = true := by
  simp only [checkStages] at h
  split at h
  · split at h
    · exact Except.error.inj h ▸ rfl
    · cases h
  · split at h
    · cases h
    · exact Except.error.inj h ▸ rfl

namespace Material

variable {states : StateRegistry} {m : Material} {pass : Option String} {q : Pass}
  {config : RenderPassConfig}

/-- A pass with declared names can only have wrong stages. -/
theorem setting_error {e : MaterialError} (hq : m.resolvePass pass = .ok q)
    (hd : q.Declared states) (h : m.setting states pass config = .error e) :
    e.isBuildFault = true := by
  obtain ⟨rasterizer, hr⟩ := StateBlock.exists_find hd.rasterizer
  obtain ⟨depthStencil, hds⟩ := StateBlock.exists_find hd.depthStencil
  obtain ⟨blend, hb⟩ := StateBlock.exists_find hd.blend
  obtain ⟨renderTarget, hrt⟩ := StateBlock.exists_find hd.renderTarget
  cases hs : q.checkStages m.id with
  | error x =>
      simp only [setting, hq, hs, Result.ok_bind, Result.error_bind, Except.error.injEq] at h
      exact h ▸ Pass.checkStages_error hs
  | ok u =>
      simp only [setting, hq, hs, hr, hds, hb, hrt, Result.ok_bind, Result.pure_eq] at h
      split at h <;> cases h

theorem exists_findVertexFormat (h : StateBlock.Declares states.vertexFormat m.vertexFormat?) :
    ∃ v, m.findVertexFormat states = .ok v := by
  unfold findVertexFormat
  split
  · exact ⟨_, rfl⟩
  · next id hid =>
      obtain ⟨v, hv⟩ := StateBlock.exists_find (hid ▸ h)
      exact ⟨v, hv _⟩

/-- The build of a pass with declared names fails only with errors of building, and with what the
backend answers. -/
theorem build_failsOnly (src : Source) (hq : m.resolvePass pass = .ok q) (hd : q.Declared states)
    (hv : StateBlock.Declares states.vertexFormat m.vertexFormat?) :
    Build.FailsOnly (Build.Fault tools) (m.build tools src states pass config) := by
  obtain ⟨v, hv⟩ := exists_findVertexFormat hv
  refine Build.FailsOnly.bind (.lift fun e h => .inl (setting_error hq hd h)) fun s => ?_
  refine (Build.failsOnly_shaders src m.id s.pass.label {} s.pass.shaders).bind fun r => ?_
  refine Build.FailsOnly.bind (.lift fun e h => ?_) fun spec => ?_
  · unfold Pass.finish at h
    cases ha : (r.1.add s.pass.bindings).2 with
    | ok u => simp [ha, Except.map] at h
    | error x =>
        simp only [ha, Except.map, Except.error.injEq] at h
        exact h ▸ Build.fault_of_add ha
  refine (Build.failsOnly_layout spec).bind fun layout => ?_
  refine Build.FailsOnly.bind (.lift fun e h => ?_) fun vertexFormat? => ?_
  · unfold vertices at h
    rw [hv] at h
    split at h <;> cases h
  exact (Build.failsOnly_pipeline _).bind fun _ => .pure _

end Material

end RenderMaterials
