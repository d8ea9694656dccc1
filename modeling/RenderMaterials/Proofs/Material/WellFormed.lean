import RenderMaterials.Pipeline.Key
import RenderMaterials.Proofs.Material.Passes
import RenderMaterials.Proofs.Source.Canonical
import RenderMaterials.Source.Memory

/-!
# Reading materials — what is well formed

However a material is written, in one pass or in several, with its shaders in place or in a library,
under one name of a stage or another, what is read obeys the rules that later parts rely on without
looking again.

* `ShaderReference.WellFormed`, `Pass.WellFormed`, `Material.WellFormed`: the rules.
* `ShaderReference.wellFormed_of_ofDeclaration`: every shader comes from one declaration.
* `ShaderReference.Together.readEach`: no two shaders of a pass are of one stage.
* `Material.canonical_of_read`: the shader files of a material that was read are canonical.
* `Material.read_wellFormed`: a material that was read is well formed, and its passes are selected
  by their names.
* `Material.TwoPasses.two_passes_selected`: one with a shader from a library and another name of a
  stage.
-/

namespace RenderMaterials

/-! ### Defines -/

namespace Define

theorem pairwise_insert {ds : List String} (h : ds.Pairwise (· < ·)) (d : String) :
    (insert d ds).Pairwise (· < ·) := by
  induction ds with
  | nil => exact List.pairwise_singleton _ d
  | cons e es ih =>
      obtain ⟨he, hes⟩ := List.pairwise_cons.1 h
      unfold insert
      split
      · next hlt =>
          refine List.pairwise_cons.2 ⟨fun f hf => ?_, h⟩
          rcases List.mem_cons.1 hf with rfl | hf
          · exact hlt
          · exact String.lt_trans hlt (he f hf)
      · next hnlt =>
          split
          · exact h
          · next hne =>
              have hgt : e < d := by
                by_contra hnot
                exact hne (String.le_antisymm (String.not_lt.1 hnot) (String.not_lt.1 hnlt))
              refine List.pairwise_cons.2 ⟨fun f hf => ?_, ih hes⟩
              rcases (mem_insert f d es).1 hf with rfl | hf
              · exact hgt
              · exact he f hf

/-- The entries of a set rise strictly. -/
theorem pairwise_toSet (ds : List String) : (toSet ds).Pairwise (· < ·) := by
  induction ds with
  | nil => exact List.Pairwise.nil
  | cons d ds ih => exact pairwise_insert ih d

end Define

/-! ### Shaders -/

/-- The files of some shaders are canonical. -/
def CanonicalFiles (ss : List ShaderReference) : Prop :=
  ∀ s ∈ ss, Path.normalize s.file = .ok s.file

namespace ShaderReference

/-- A shader whose file is there under its canonical path, whose profile belongs to its stage, and
whose defines rise strictly. -/
structure WellFormed (src : Source) (s : ShaderReference) : Prop where
  canonical : Path.normalize s.file = .ok s.file
  present   : src.contains s.file = true
  profile   : s.stage.acceptsProfile s.profile = true
  defines   : s.defines.Pairwise (· < ·)

/-- Shaders that can stand in one pass: no two of them are of one stage. -/
structure Together (src : Source) (ss : List ShaderReference) : Prop where
  each  : ∀ s ∈ ss, s.WellFormed src
  nodup : (ss.map (·.stage)).Nodup

variable {ctx : ReadContext} {material pass : String} {stage : Stage} {s : ShaderReference}
  {ss found : List ShaderReference}

/-- What a shader takes from its declaration, and what is checked of it. -/
theorem parts_of_ofDeclaration {id? : Option String} {v : Json}
    (h : ofDeclaration ctx material stage id? v = .ok s) :
    s.stage = stage ∧ s.defines = Define.toSet (declaredDefines v ++ ctx.globalDefines) ∧
    ctx.source.contains s.file = true ∧ stage.acceptsProfile s.profile = true ∧
    ∃ written, Path.join ctx.shaderRoot written = .ok s.file := by
  obtain ⟨written, -, h⟩ := Result.bind_eq_ok.1 h
  obtain ⟨profile, -, h⟩ := Result.bind_eq_ok.1 h
  obtain ⟨file, hf, h⟩ := Result.bind_eq_ok.1 h
  simp only [Result.throw_eq, Result.error_bind] at h
  split at h
  · cases h
  · next hthere =>
      split at h
      · cases h
      · next hprofile =>
          obtain rfl := Except.ok.inj h
          exact ⟨rfl, rfl, by simpa using hthere, by simpa using hprofile, written, hf⟩

theorem wellFormed_of_ofDeclaration {id? : Option String} {v : Json}
    (h : ofDeclaration ctx material stage id? v = .ok s) :
    s.WellFormed ctx.source ∧ s.stage = stage := by
  obtain ⟨hstage, hdefines, hthere, hprofile, written, hf⟩ := parts_of_ofDeclaration h
  exact ⟨⟨Path.normalize_join hf, hthere, hstage ▸ hprofile,
    hdefines ▸ Define.pairwise_toSet _⟩, hstage⟩

/-- A shader is read from its declaration, which stands in place or in a library. -/
theorem wellFormed_of_read {written : String} {v : Json}
    (h : read ctx material stage written v = .ok s) :
    s.WellFormed ctx.source ∧ s.stage = stage := by
  unfold read at h
  split at h
  · split at h
    · exact wellFormed_of_ofDeclaration h
    · cases h
  · exact wellFormed_of_ofDeclaration h

theorem Together.nil (src : Source) : Together src [] := ⟨by simp, List.nodup_nil⟩

/-- A shader of a new stage is added. -/
theorem Together.snoc {src : Source} (h : Together src ss) (hs : s.WellFormed src)
    (hnew : ∀ t ∈ ss, t.stage ≠ s.stage) : Together src (ss ++ [s]) := by
  refine ⟨fun t ht => ?_, ?_⟩
  · rcases List.mem_append.1 ht with ht | ht
    · exact h.each t ht
    · exact List.mem_singleton.1 ht ▸ hs
  · rw [List.map_append, List.map_singleton]
    refine List.Nodup.append h.nodup (List.nodup_singleton _) ?_
    simpa using hnew

theorem Together.readEach {ds : List (String × Json)} (hf : Together ctx.source found)
    (h : readEach ctx material pass found ds = .ok ss) : Together ctx.source ss := by
  induction ds generalizing found with
  | nil =>
      obtain rfl := Except.ok.inj h
      exact hf
  | cons d ds ih =>
      obtain ⟨written, v⟩ := d
      unfold ShaderReference.readEach at h
      split at h
      · split at h
        · cases h
        · next hnew =>
            obtain ⟨s, hs, h⟩ := Result.bind_eq_ok.1 h
            obtain ⟨hw, hstage⟩ := wellFormed_of_read hs
            exact ih (hf.snoc hw (by simpa [hstage] using hnew)) h
      · cases h

theorem together_of_readAll {v : Json} (h : readAll ctx material pass v = .ok ss) :
    Together ctx.source ss := by
  obtain ⟨ds, -, h⟩ := Result.bind_eq_ok.1 h
  exact (Together.nil ctx.source).readEach h

end ShaderReference

/-! ### Bindings -/

theorem Binding.stages_of_read {stages : StageSet} {v : Json} {b : Binding}
    (h : Binding.read stages v = .ok b) : b.stages = stages := by
  obtain ⟨name, -, h⟩ := Result.bind_eq_ok.1 h
  dsimp only at h
  split at h
  · split at h
    · obtain rfl := Except.ok.inj h
      rfl
    · split at h
      · obtain rfl := Except.ok.inj h
        rfl
      · cases h
  · cases h

/-- The bindings of a pass are seen by all its stages. -/
theorem Binding.stages_of_readField {v : Json} {ss : List ShaderReference} {bs : List Binding}
    (h : Binding.readField v ss = .ok bs) :
    ∀ b ∈ bs, b.stages = .ofList (ss.map (·.stage)) := by
  intro b hb
  obtain ⟨item, -, hitem⟩ := Result.exists_left_of_mem (Result.mapM_eq_ok.1 h) hb
  exact stages_of_read hitem

/-! ### Passes -/

namespace Pass

/-- A pass whose shaders can stand together, and whose bindings are seen by their stages. -/
structure WellFormed (src : Source) (p : Pass) : Prop where
  shaders  : ShaderReference.Together src p.shaders
  bindings : ∀ b ∈ p.bindings, b.stages = p.stages

variable {ctx : ReadContext} {material : String} {whole : Json} {defaults : PassDefaults}

theorem wellFormed_of_read {v : Json} {p : Pass}
    (h : Pass.read ctx material whole defaults v = .ok p) : p.WellFormed ctx.source := by
  unfold Pass.read at h
  split at h
  · obtain ⟨ss, hs, h⟩ := Result.bind_eq_ok.1 h
    obtain ⟨topology, -, h⟩ := Result.bind_eq_ok.1 h
    obtain ⟨parameters, -, h⟩ := Result.bind_eq_ok.1 h
    obtain ⟨bindings, hb, h⟩ := Result.bind_eq_ok.1 h
    obtain rfl := Except.ok.inj h
    exact ⟨ShaderReference.together_of_readAll hs, Binding.stages_of_readField hb⟩
  · cases h

theorem wellFormed_of_readSingle {p : Pass}
    (h : readSingle ctx material whole defaults = .ok p) : p.WellFormed ctx.source := by
  unfold readSingle at h
  split at h
  · obtain ⟨ss, hs, h⟩ := Result.bind_eq_ok.1 h
    obtain ⟨bindings, hb, h⟩ := Result.bind_eq_ok.1 h
    obtain rfl := Except.ok.inj h
    exact ⟨ShaderReference.together_of_readAll hs, Binding.stages_of_readField hb⟩
  · cases h

/-- There is a pass, and all of them are well formed. -/
theorem wellFormed_of_readAll {ps : List Pass}
    (h : readAll ctx material whole defaults = .ok ps) :
    ps ≠ [] ∧ ∀ p ∈ ps, p.WellFormed ctx.source := by
  unfold readAll at h
  split at h
  · obtain ⟨p, hp, h⟩ := Result.bind_eq_ok.1 h
    obtain rfl := Except.ok.inj h
    exact ⟨List.cons_ne_nil p [], by simpa using wellFormed_of_readSingle hp⟩
  · next items hitems =>
      simp only [Result.throw_eq, Result.error_bind] at h
      split at h
      · cases h
      · next hne =>
          obtain ⟨qs, hqs, h⟩ := Result.bind_eq_ok.1 h
          have hrel := Result.mapM_eq_ok.1 hqs
          have hall : qs ≠ [] ∧ ∀ p ∈ qs, p.WellFormed ctx.source := by
            refine ⟨fun hnil => hne ?_, fun p hp => ?_⟩
            · rw [hnil] at hrel
              simpa using hrel
            · obtain ⟨v, -, hv⟩ := Result.exists_left_of_mem hrel hp
              exact wellFormed_of_read hv
          split at h
          · obtain ⟨-, -, h⟩ := Result.bind_eq_ok.1 h
            obtain rfl := Except.ok.inj h
            exact hall
          · obtain rfl := Except.ok.inj h
            exact hall
  · cases h

end Pass

/-! ### Materials -/

namespace Material

/-- A material with a pass, whose passes are well formed and told apart by names if there are
several. -/
structure WellFormed (src : Source) (m : Material) : Prop where
  nonempty : m.passes ≠ []
  passes   : ∀ p ∈ m.passes, p.WellFormed src
  named    : 2 ≤ m.passes.length →
    (∀ p ∈ m.passes, ∃ n, p.name? = some n) ∧ (m.passes.map (·.name?)).Nodup

variable {ctx : ReadContext} {v : Json} {m : Material}

theorem passes_of_read (h : Material.read ctx v = .ok m) :
    m.passes ≠ [] ∧ ∀ p ∈ m.passes, p.WellFormed ctx.source := by
  obtain ⟨id, -, h⟩ := Result.bind_eq_ok.1 h
  obtain ⟨topology, -, h⟩ := Result.bind_eq_ok.1 h
  obtain ⟨parameters, -, h⟩ := Result.bind_eq_ok.1 h
  obtain ⟨passes, hp, h⟩ := Result.bind_eq_ok.1 h
  obtain rfl := Except.ok.inj h
  exact Pass.wellFormed_of_readAll hp

/-- The shader files of a material that was read are canonical. -/
theorem canonical_of_read (h : Material.read ctx v = .ok m) : CanonicalFiles m.shaders := by
  intro s hs
  obtain ⟨p, hmem, hs⟩ := List.mem_flatMap.1 hs
  exact (((passes_of_read h).2 p hmem).shaders.each s hs).canonical

/-- Of several passes each has a name. -/
theorem exists_name (h : Pass.Named m.passes) (hlen : 2 ≤ m.passes.length) {p : Pass}
    (hp : p ∈ m.passes) : ∃ n, p.name? = some n := by
  cases hn : p.name? with
  | some n => exact ⟨n, rfl⟩
  | none =>
      rw [h.alone p hp hn] at hlen
      exact absurd hlen (by simp)

/-- A material that was read is well formed.  So it needs no name of a pass exactly when it has one
pass, the name of each pass selects that pass, and a request has a pipeline's key exactly when it
selects a pass. -/
theorem read_wellFormed (h : Material.read ctx v = .ok m) :
    m.WellFormed ctx.source ∧
    ((∃ p, m.resolvePass none = .ok p) ↔ m.passes.length = 1) ∧
    (∀ p ∈ m.passes, ∀ n, p.name? = some n → m.resolvePass (some n) = .ok p) ∧
    ∀ pass renderPass, PipelineHash.ofRequest m pass renderPass = .invalid ↔
      ∃ e, m.resolvePass pass = .error e := by
  have hnamed := named_of_read h
  obtain ⟨hne, hpasses⟩ := passes_of_read h
  refine ⟨⟨hne, hpasses, fun hlen => ⟨fun p hp => exists_name hnamed hlen hp, hnamed.nodup⟩⟩,
    ?_, fun p hp n hn => ?_, fun pass renderPass => PipelineHash.ofRequest_eq_invalid_iff⟩
  · simp only [resolvePass_none_eq_ok, List.length_eq_one_iff]
  · rw [← hn]
    exact (resolvePass_of_named hnamed hp).1

/-! ### A material of two passes -/

namespace TwoPasses

/-- A library with a pixel shader. -/
def library : JsonObject :=
  [("pixel", .array [.object [("id", .text "lit"), ("file", .text "./lit.wgsl"),
    ("profile", .text "ps_6_0"), ("defines", .array [.text "SHADOWS", .text "LIT"])]])]

def context : ReadContext where
  source        := (({} : MemorySource).insertText "shaders/lit.wgsl" "").toSource
  shaderRoot    := "shaders"
  library
  globalDefines := ["LIT"]

/-- The shaders of the one pass by their stages, and of the other in a list. -/
def json : Json :=
  let vertex := [("file", .text "lit.wgsl"), ("profile", .text "vs_6_0")]
  .object [("id", .text "m"), ("passes", .array [
    .object [("name", .text "forward"),
      ("shaders", .object [("vertex", .object vertex), ("Fragment", .text "lit")])],
    .object [("name", .text "shadow"),
      ("shaders", .array [.object (("stage", .text "vertex") :: vertex)]),
      ("bindings", .array [.object [("name", .text "camera"), ("kind", .text "cbv")]])]])]

theorem exists_read : ∃ m, Material.read context json = .ok m ∧
    m.passes.map (·.name?) = [some "forward", some "shadow"] := by
  have h : (Material.read context json).toOption.map (·.passes.map (·.name?)) =
      some [some "forward", some "shadow"] := by decide +kernel
  obtain ⟨m, hm, hnames⟩ := Option.map_eq_some_iff.1 h
  exact ⟨m, Result.toOption_eq_some.1 hm, hnames⟩

/-- The material is well formed, and each of its passes is selected by its name only. -/
theorem two_passes_selected : ∃ m, Material.read context json = .ok m ∧
    m.WellFormed context.source ∧ (¬ ∃ p, m.resolvePass none = .ok p) ∧
    ∀ p ∈ m.passes, ∃ n, p.name? = some n ∧ m.resolvePass (some n) = .ok p := by
  obtain ⟨m, hm, hnames⟩ := exists_read
  have hlen : m.passes.length = 2 := by simpa using congrArg List.length hnames
  obtain ⟨hw, hnone, hname, -⟩ := read_wellFormed hm
  refine ⟨m, hm, hw, fun hsome => ?_, fun p hp => ?_⟩
  · rw [hnone.1 hsome] at hlen
    cases hlen
  · obtain ⟨n, hn⟩ := (hw.named (Nat.le_of_eq hlen.symm)).1 p hp
    exact ⟨n, hn, hname p hp n hn⟩

end TwoPasses

end Material

end RenderMaterials
