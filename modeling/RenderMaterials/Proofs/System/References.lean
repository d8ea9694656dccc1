import RenderMaterials.Proofs.Material.Passes
import RenderMaterials.Proofs.Pipeline.Faults
import RenderMaterials.Proofs.System.Serving
import RenderMaterials.System.BuildAll

/-!
# Material systems — references

A load looks every name up once, whatever the configuration, and fails when one is that of nothing.
So no request for a pass of a loaded material in a loaded render pass can fail with a name.

* `Catalog.closed_iff`: the names of a catalog that are those of something.
* `Catalog.closed_of_load`: every catalog that was loaded is closed.
* `Reachable.loaded`: in every run, the catalog is one that was loaded.
* `fault_of_serve`: what a request for a loaded pass can fail with.
* `reference_safe`: in every run, neither such a request nor the requests for everything fail with a
  name.
-/

namespace RenderMaterials

/-! ### Names that are looked up -/

namespace StateBlock

variable {α : Type} [StateBlock α] {blocks : Table String α} {id : Option String}

theorem errorOf_find_eq_none {referrer : String} :
    Document.errorOf (find blocks id referrer) = none ↔ Declares blocks id := by
  constructor
  · intro h i hi
    obtain rfl := Option.mem_def.1 hi
    cases hb : blocks.value? i with
    | none => simp [find, hb, Document.errorOf] at h
    | some b => simp [Table.has, hb]
  · intro h
    obtain ⟨b, hb⟩ := exists_find h
    rw [hb]
    rfl

theorem isFatal_of_find {referrer : String} {e : MaterialError}
    (h : Document.errorOf (find blocks id referrer) = some e) : e.isFatal = true := by
  cases id with
  | none => cases h
  | some i =>
      cases hb : blocks.value? i with
      | none =>
          simp only [find, hb, Document.errorOf, Option.some.injEq] at h
          exact h ▸ rfl
      | some b => simp [find, hb, Document.errorOf] at h

end StateBlock

namespace Catalog

variable {c : Catalog} {m : Material} {p : Pass} {r : RenderPass} {e : MaterialError}

/-- Every name in a catalog is that of something in it. -/
structure Closed (c : Catalog) : Prop where
  vertexFormat : ∀ m ∈ c.materials, StateBlock.Declares c.states.vertexFormat m.vertexFormat?
  pass         : ∀ m ∈ c.materials, ∀ p ∈ m.passes, p.Declared c.states
  passName     : ∀ m ∈ c.materials, ∀ p ∈ m.passes, ∀ n ∈ p.name?, c.renderPassIndex.has n = true
  renderPass   : ∀ r ∈ c.renderPasses, StateBlock.Declares c.states.renderTarget r.renderTarget?

theorem errorOf_findVertexFormat (m : Material) (states : StateRegistry) :
    Document.errorOf (m.findVertexFormat states) = Document.errorOf
      (StateBlock.find states.vertexFormat m.vertexFormat? s!"material '{m.id}'") := by
  unfold Material.findVertexFormat
  cases m.vertexFormat? with
  | none => rfl
  | some id => rfl

theorem errorOf_resolve (r : RenderPass) (states : StateRegistry) :
    Document.errorOf (RenderPassConfig.resolve r states) = Document.errorOf
      (StateBlock.find states.renderTarget r.renderTarget? s!"render pass '{r.name}'") := by
  unfold RenderPassConfig.resolve
  cases StateBlock.find states.renderTarget r.renderTarget? s!"render pass '{r.name}'" <;> rfl

theorem unresolvedInPass_eq_nil : c.unresolvedInPass m p = [] ↔
    p.Declared c.states ∧ ∀ n ∈ p.name?, c.renderPassIndex.has n = true := by
  have hname : (p.name?.filter fun n => !c.renderPassIndex.has n) = none ↔
      ∀ n ∈ p.name?, c.renderPassIndex.has n = true := by
    simp
  simp only [unresolvedInPass, List.filterMap_eq_nil_iff, List.mem_cons, forall_eq_or_imp, id,
    StateBlock.errorOf_find_eq_none, Option.map_eq_none_iff, hname, List.not_mem_nil]
  constructor
  · rintro ⟨hr, hd, hb, ht, hn, -⟩
    exact ⟨⟨hr, hd, hb, ht⟩, hn⟩
  · rintro ⟨⟨hr, hd, hb, ht⟩, hn⟩
    exact ⟨hr, hd, hb, ht, hn, by simp⟩

theorem unresolvedInMaterial_eq_nil : c.unresolvedInMaterial m = [] ↔
    StateBlock.Declares c.states.vertexFormat m.vertexFormat? ∧
      ∀ p ∈ m.passes, c.unresolvedInPass m p = [] := by
  rw [unresolvedInMaterial, List.append_eq_nil_iff, Option.toList_eq_nil_iff,
    errorOf_findVertexFormat, StateBlock.errorOf_find_eq_none, List.flatMap_eq_nil_iff]

/-- Nothing is unresolved in a catalog when every name is that of something. -/
theorem closed_iff : c.Closed ↔ c.unresolved = [] := by
  simp only [unresolved, List.append_eq_nil_iff, List.flatMap_eq_nil_iff,
    unresolvedInMaterial_eq_nil, unresolvedInPass_eq_nil, List.filterMap_eq_nil_iff,
    errorOf_resolve, StateBlock.errorOf_find_eq_none]
  constructor
  · intro h
    exact ⟨fun m hm => ⟨h.vertexFormat m hm, fun p hp => ⟨h.pass m hm p hp, h.passName m hm p hp⟩⟩,
      h.renderPass⟩
  · rintro ⟨hm, hr⟩
    exact ⟨fun m h => (hm m h).1, fun m h p hp => ((hm m h).2 p hp).1,
      fun m h p hp => ((hm m h).2 p hp).2, hr⟩

/-- An error of a name cannot be passed over. -/
theorem isFatal_of_unresolved (h : e ∈ c.unresolved) : e.isFatal = true := by
  rcases List.mem_append.1 h with h | h
  · obtain ⟨m, -, h⟩ := List.mem_flatMap.1 h
    rcases List.mem_append.1 h with h | h
    · rw [Option.mem_toList, errorOf_findVertexFormat] at h
      exact StateBlock.isFatal_of_find h
    · obtain ⟨p, -, h⟩ := List.mem_flatMap.1 h
      obtain ⟨e?, he, h⟩ := List.mem_filterMap.1 h
      obtain rfl : e? = some e := h
      simp only [List.mem_cons, List.not_mem_nil, or_false] at he
      rcases he with he | he | he | he | he
      · exact StateBlock.isFatal_of_find he.symm
      · exact StateBlock.isFatal_of_find he.symm
      · exact StateBlock.isFatal_of_find he.symm
      · exact StateBlock.isFatal_of_find he.symm
      · obtain ⟨n, -, rfl⟩ := Option.map_eq_some_iff.1 he.symm
        rfl
  · obtain ⟨r, -, h⟩ := List.mem_filterMap.1 h
    rw [errorOf_resolve] at h
    exact StateBlock.isFatal_of_find h

/-- Every catalog that was loaded is closed, whatever the configuration passes over. -/
theorem closed_of_load {config : SystemConfig} {src : Source} {root : String}
    (h : load config src root = .ok c) : c.Closed := by
  obtain ⟨d, -, hd⟩ := load_eq_ok.1 h
  obtain ⟨states, -, -, hunresolved⟩ := read_eq_ok hd
  refine closed_iff.2 (List.eq_nil_iff_forall_not_mem.2 fun e he => ?_)
  have hpassed := hunresolved e he
  rw [SystemConfig.endsLoad, isFatal_of_unresolved he, Bool.true_or] at hpassed
  cases hpassed

/-! ### Requests for what was loaded -/

/-- A request for a pass of a material in a render pass, all of them loaded.  The pass goes by its
name, or by none if it is the only one. -/
def Asks (c : Catalog) (q : PipelineRequest) : Prop :=
  ∃ m p, c.materials[q.handle.index]? = some m ∧ p ∈ m.passes ∧
    (q.pass = p.name? ∨ q.pass = none ∧ m.passes = [p]) ∧
    ∃ r ∈ c.renderPasses, r.name = q.renderPass

/-- The pass of a request for what was loaded, with the names in it. -/
theorem Closed.select (h : c.Closed) (hn : ∀ m ∈ c.materials, Pass.Named m.passes)
    {q : PipelineRequest} (hq : c.Asks q) : ∃ m p, c.select? q = some (m, p) ∧
      m.resolvePass q.pass = .ok p ∧ p.Declared c.states ∧
      StateBlock.Declares c.states.vertexFormat m.vertexFormat? := by
  obtain ⟨m, p, hm, hp, hpass, -⟩ := hq
  have hmem := List.mem_of_getElem? hm
  have hresolve : m.resolvePass q.pass = .ok p := by
    obtain ⟨hname, honly⟩ := Material.resolvePass_of_named (hn m hmem) hp
    rcases hpass with e | ⟨e, hps⟩
    · rw [e]; exact hname
    · rw [e]; exact honly hps
  exact ⟨m, p, select?_eq_some.2 ⟨hm, hresolve⟩, hresolve, h.pass m hmem p hp,
    h.vertexFormat m hmem⟩

/-! ### Requests for everything -/

theorem mem_passRequests {x : PassRequest} : x ∈ c.passRequests ↔
    ∃ first ∈ c.renderPasses.head?, ∃ i m, c.materials[i]? = some m ∧ ∃ p ∈ m.passes,
      x = ⟨⟨i⟩, m.id, p.name?, c.renderPassFor first p⟩ := by
  unfold passRequests
  cases c.renderPasses with
  | nil => simp
  | cons first rs =>
      simp only [List.mem_flatMap, Prod.exists, List.mem_zipIdx_iff_getElem?, List.mem_map,
        List.head?_cons, Option.mem_def, Option.some.injEq, exists_eq_left', eq_comm (a := x)]
      exact exists_comm

/-- A named pass goes with the render pass of its name. -/
theorem Closed.renderPassFor (h : c.Closed) (hi : c.Indexed) (hm : m ∈ c.materials)
    (hp : p ∈ m.passes) {n : String} (hn : p.name? = some n) (other : RenderPass) :
    c.renderPassFor other p = n := by
  obtain ⟨r, -, hr⟩ := hi.exists_renderPass (h.passName m hm p hp n hn)
  simp [Catalog.renderPassFor, hn, Option.filter, hr]

theorem Closed.asks_of_mem (h : c.Closed) (hi : c.Indexed) {x : PassRequest}
    (hx : x ∈ c.passRequests) : c.Asks ⟨x.handle, x.pass?, x.renderPass⟩ := by
  obtain ⟨first, hfirst, i, m, hm, p, hp, rfl⟩ := mem_passRequests.1 hx
  have hmem := List.mem_of_getElem? hm
  refine ⟨m, p, hm, hp, .inl rfl, ?_⟩
  cases hn : p.name? with
  | none => exact ⟨first, List.mem_of_mem_head? hfirst, by simp [Catalog.renderPassFor, hn]⟩
  | some n =>
      obtain ⟨r, hr, hfound⟩ := hi.exists_renderPass (h.passName m hmem p hp n hn)
      refine ⟨r, hr, ?_⟩
      rw [hi.renderPass_name hfound, h.renderPassFor hi hmem hp hn first]

/-- A named pass is requested in the render pass of its name, which is there. -/
theorem Closed.mem_passRequests_of_named (h : c.Closed) (hi : c.Indexed) {i : Nat}
    (hm : c.materials[i]? = some m) (hp : p ∈ m.passes) {n : String} (hn : p.name? = some n) :
    ⟨⟨i⟩, m.id, some n, n⟩ ∈ c.passRequests ∧ ∃ r, c.renderPass? n = some r ∧ r.name = n := by
  have hmem := List.mem_of_getElem? hm
  obtain ⟨r, hr, hfound⟩ := hi.exists_renderPass (h.passName m hmem p hp n hn)
  refine ⟨mem_passRequests.2 ?_, r, hfound, hi.renderPass_name hfound⟩
  obtain ⟨first, rest, hrs⟩ := List.exists_cons_of_ne_nil (List.ne_nil_of_mem hr)
  refine ⟨first, by simp [hrs], i, m, hm, p, hp, ?_⟩
  rw [h.renderPassFor hi hmem hp hn first, hn]

end Catalog

namespace MaterialSystem

variable {σ : Type} {tools : Toolchain σ} {s s' : MaterialSystem σ} {q : PipelineRequest}

/-- The render pass of a request for what was loaded is found, with its images. -/
theorem exists_renderPassConfig (hi : s.catalog.Indexed) (h : s.catalog.Closed)
    (hq : s.catalog.Asks q) : ∃ config, s.renderPassConfig q.renderPass = .ok config := by
  obtain ⟨-, -, -, -, -, r, hr, hname⟩ := hq
  obtain ⟨known, hmem, hfound⟩ := hi.exists_renderPass (hname ▸ hi.knownPass r hr)
  obtain ⟨target, ht⟩ := StateBlock.exists_find (h.renderPass known hmem)
  refine ⟨⟨known.name, target⟩, ?_⟩
  simp only [renderPassConfig, hfound, RenderPassConfig.resolve, ht]
  rfl

/-- What a request for a loaded pass can fail with. -/
theorem fault_of_serve (hi : s.catalog.Indexed) (h : s.catalog.Closed)
    (hn : ∀ m ∈ s.catalog.materials, Pass.Named m.passes) (hq : s.catalog.Asks q) {src : Source}
    {e : MaterialError} (hserve : s.serve src q = (.error e, s')) : Build.Fault s.tools e := by
  have hs := serving hi src q
  rw [hserve] at hs
  obtain ⟨m, p, hsel, hp, hd, hv⟩ := h.select hn hq
  obtain ⟨config, hc⟩ := exists_renderPassConfig hi h hq
  cases hs with
  | unselected hno => rw [hsel] at hno; cases hno
  | unknown hno => rw [hc] at hno; cases hno
  | failed hsel' _ hb =>
      obtain ⟨rfl, rfl⟩ := Prod.mk.inj (Option.some.inj (hsel.symm.trans hsel'))
      exact Material.build_failsOnly src hp hd hv _ _ _ hb

/-- In every run the tools stay, and the catalog is one that was loaded. -/
theorem Reachable.loaded (h : Reachable tools s) :
    s.tools = tools ∧ ∃ config src root, Catalog.load config src root = .ok s.catalog := by
  induction h with
  | load device config src root h =>
      obtain ⟨path, -, h⟩ := Result.bind_eq_ok.1 h
      obtain ⟨catalog, hc, h⟩ := Result.bind_eq_ok.1 h
      obtain rfl := Except.ok.inj h
      exact ⟨rfl, config, src, path, hc⟩
  | serve src q h ih =>
      obtain ⟨w, pipelines, e⟩ := serve_frame h.attributed.indexed src q
      rw [e]
      exact ih
  | @shaderChanged s file _ ih =>
      rw [(forgets_shaderChanged s file).tools, (forgets_shaderChanged s file).catalog]
      exact ih
  | invalidateMaterial id _ ih => exact ih
  | clearCaches _ ih => exact ih
  | @reload s src _ ih =>
      unfold MaterialSystem.reload
      split
      · next catalog hc => exact ⟨ih.1, s.config, src, s.root, hc⟩
      · exact ih

theorem Reachable.closed (h : Reachable tools s) : s.catalog.Closed := by
  obtain ⟨-, config, src, root, hload⟩ := h.loaded
  exact Catalog.closed_of_load hload

/-- In every run the names of passes tell them apart. -/
theorem Reachable.named (h : Reachable tools s) {m : Material} (hm : m ∈ s.catalog.materials) :
    Pass.Named m.passes := by
  obtain ⟨-, config, src, root, hload⟩ := h.loaded
  obtain ⟨ctx, v, hread⟩ := Catalog.read_of_load hload hm
  exact Material.named_of_read hread

theorem Reachable.fault (h : Reachable tools s) (hq : s.catalog.Asks q) {src : Source}
    {e : MaterialError} (hserve : s.serve src q = (.error e, s')) : Build.Fault tools e := by
  rw [← h.loaded.1]
  exact fault_of_serve h.attributed.indexed h.closed (fun m hm => h.named hm) hq hserve

/-- A run of requests for what was loaded fails with nothing else, from one to the next. -/
theorem Reachable.fault_of_buildEach {src : Source} {rs : List PassRequest} (h : Reachable tools s)
    (hrs : ∀ r ∈ rs, s.catalog.Asks ⟨r.handle, r.pass?, r.renderPass⟩) :
    ∀ x ∈ (buildEach src s rs).1, ∀ e, x.result = .error e → Build.Fault tools e := by
  induction rs generalizing s with
  | nil => simp [buildEach]
  | cons r rs ih =>
      have hnext := h.serve src ⟨r.handle, r.pass?, r.renderPass⟩
      obtain ⟨w, pipelines, hframe⟩ :=
        serve_frame h.attributed.indexed src ⟨r.handle, r.pass?, r.renderPass⟩
      intro x hx e he
      rcases List.mem_cons.1 hx with rfl | hx
      · exact h.fault (hrs r (by simp)) (Prod.ext he rfl)
      · refine ih hnext (fun r' hr' => ?_) x hx e he
        rw [hframe]
        exact hrs r' (by simp [hr'])

/-- In every run of a system that was loaded, under any configuration, a request for a loaded pass
in a loaded render pass fails with errors of building or what the backend answers, and with no error
of a name but the backend's own.  The same holds of the requests for everything, in which each named
pass goes with the render pass of its name.  The backend without a graphics interface leaves only
errors of building. -/
theorem reference_safe :
    (∀ {σ : Type} {tools : Toolchain σ} {s : MaterialSystem σ}, Reachable tools s →
      (∀ q, s.catalog.Asks q → ∀ src e s', s.serve src q = (.error e, s') →
        (e.isBuildFault = true ∨ tools.backend.Answers e) ∧
        (e.isReferenceFault = true → tools.backend.Answers e)) ∧
      (∀ i m p n, s.catalog.materials[i]? = some m → p ∈ m.passes → p.name? = some n →
        ⟨⟨i⟩, m.id, some n, n⟩ ∈ s.catalog.passRequests ∧
        ∃ r, s.catalog.renderPass? n = some r ∧ r.name = n) ∧
      ∀ src, ∀ x ∈ (s.buildAll src).1, ∀ e, x.result = .error e →
        e.isBuildFault = true ∨ tools.backend.Answers e) ∧
    ∀ {tools : Toolchain Counts} {s : MaterialSystem Counts}, tools.backend = .simulated →
      Reachable tools s → ∀ q, s.catalog.Asks q → ∀ src e s',
        s.serve src q = (.error e, s') → e.isBuildFault = true := by
  refine ⟨fun {σ tools s} h => ⟨fun q hq src e s' hserve => ?_, fun i m p n hm hp hn => ?_,
    fun src x hx e he => ?_⟩, fun {tools s} hb h q hq src e s' hserve => ?_⟩
  · have hfault := h.fault hq hserve
    refine ⟨hfault, fun href => hfault.resolve_left fun hbuild => ?_⟩
    rw [MaterialError.isReferenceFault_of_isBuildFault hbuild] at href
    cases href
  · exact h.closed.mem_passRequests_of_named h.attributed.indexed hm hp hn
  · exact h.fault_of_buildEach (fun r hr => h.closed.asks_of_mem h.attributed.indexed hr) x hx e he
  · refine (h.fault hq hserve).resolve_right fun hanswer => ?_
    rw [hb] at hanswer
    exact Backend.not_simulated_answers e hanswer

end MaterialSystem

/-! ### A pass without a vertex shader -/

namespace PixelOnly

open MaterialSystem

/-- The second material has no shaders, and is passed over. -/
def rootText : String :=
  "\x7b\"states\":\x7b\"rasterizerStates\":\x7b\"wire\":\x7b\x7d\x7d\x7d,\"materials\":[" ++
  "\x7b\"id\":\"m1\",\"pass\":\"forward\",\"states\":\x7b\"rasterizer\":\"wire\"\x7d," ++
    "\"shaders\":\x7b\"pixel\":\x7b\"file\":\"lit.wgsl\",\"profile\":\"ps_6_0\"\x7d\x7d\x7d," ++
  "\x7b\"id\":\"m2\"\x7d],\"renderPasses\":[\x7b\"name\":\"forward\"\x7d]\x7d"

def files : Source :=
  ((({} : MemorySource).insertText "root.json" rootText).insertText "lit.wgsl" "").toSource

/-- Entries with errors that can be passed over are. -/
def config : SystemConfig := { skipInvalid := true, validate := false }

def request : PipelineRequest := ⟨⟨0⟩, some "forward", "forward"⟩

/-- The request is one of the requests for everything, and fails for its stages. -/
def failsToBuild (s : MaterialSystem Counts) : Bool :=
  s.catalog.passRequests = [⟨request.handle, "m1", request.pass, request.renderPass⟩] &&
    Document.errorOf (s.serve files request).1 = some (.missingVertexShader "m1" "forward")

set_option maxRecDepth 100000 in
theorem load_failsToBuild :
    (match MaterialSystem.load SharedKey.tools {} config files "root.json" with
    | .error _ => false
    | .ok s    => failsToBuild s) = true := by
  decide +kernel

/-- The request is refused for its stages, and not for a name. -/
theorem missing_vertex_of_request : ∃ s s' e, Reachable SharedKey.tools s ∧
    s.catalog.Asks request ∧ s.serve files request = (.error e, s') ∧
    e = .missingVertexShader "m1" "forward" ∧ e.isBuildFault = true ∧
    (e.isReferenceFault = true → SharedKey.tools.backend.Answers e) := by
  have h := load_failsToBuild
  split at h
  · cases h
  · next s hload =>
      have hs : Reachable SharedKey.tools s := .load {} config files "root.json" hload
      simp only [failsToBuild, Bool.and_eq_true, decide_eq_true_eq] at h
      obtain ⟨hall, herr⟩ := h
      have hq : s.catalog.Asks request := by
        have hmem : ⟨request.handle, "m1", request.pass, request.renderPass⟩ ∈
            s.catalog.passRequests := by rw [hall]; exact List.mem_singleton_self _
        exact hs.closed.asks_of_mem hs.attributed.indexed hmem
      obtain ⟨e, s', hserve⟩ : ∃ e s', s.serve files request = (.error e, s') := by
        cases hr : (s.serve files request).1 with
        | ok p => simp [hr, Document.errorOf] at herr
        | error e => exact ⟨e, _, Prod.ext hr rfl⟩
      have he : e = .missingVertexShader "m1" "forward" := by
        simpa [hserve, Document.errorOf] using herr
      exact ⟨s, s', e, hs, hq, hserve, he, reference_safe.2 rfl hs request hq files e s' hserve,
        ((reference_safe.1 hs).1 request hq files e s' hserve).2⟩

end PixelOnly

end RenderMaterials
