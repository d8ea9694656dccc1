import RenderMaterials.CommandLine.Run
import RenderMaterials.Proofs.System.Handles
import RenderMaterials.Proofs.System.Memoized

/-!
# Material systems — building everything

With a render pass, every pass of every material is asked for once, in order, whatever fails in
between; without one nothing is.  A pass whose request was served has a pipeline in the cache from
then on, and one whose request failed has none.  So the failures are the passes without a pipeline,
as long as different passes have different keys.

* `cached?`, `pipelineOf?`: what the cache has for a request, and whether it was made for it.
* `cached?_serve`, `cached?_serve_other`: what one request does to the cache; `served_cached`,
  `toOption_eq_pipelineOf?`: what all of them do.
* `select_passRequests`: what the requests for everything select.
* `builds_all`: in every run, what building everything does, and how the command line ends.
* `NoRenderPass.not_complete`: materials without a render pass.
-/

namespace RenderMaterials

/-! ### Requests for everything -/

/-- The pipeline that is asked for. -/
def PassRequest.asked (r : PassRequest) : PipelineRequest := ⟨r.handle, r.pass?, r.renderPass⟩

namespace Catalog

variable {c : Catalog}

/-- The passes of all materials, in order. -/
def passes (c : Catalog) : List (Material × Pass) :=
  c.materials.flatMap fun m => m.passes.map (m, ·)

/-- Each pass of each material is asked for once, in order: by a name that selects it, in the render
pass of its name, or in the first one if it has none. -/
theorem Closed.select_passRequests (h : c.Closed) (hi : c.Indexed)
    (hn : ∀ m ∈ c.materials, Pass.Named m.passes) {first : RenderPass}
    (hfirst : first ∈ c.renderPasses.head?) :
    c.passRequests.map (fun r => (c.select? r.asked, r.renderPass)) =
      c.passes.map fun mp => (some mp, mp.2.name?.getD first.name) := by
  obtain ⟨rest, hrest⟩ := List.head?_eq_some_iff.1 hfirst
  have hrequest : ∀ m i, c.materials[i]? = some m → ∀ p ∈ m.passes,
      (c.select? ⟨⟨i⟩, p.name?, c.renderPassFor first p⟩, c.renderPassFor first p) =
        (some (m, p), p.name?.getD first.name) := fun m i hm p hp => by
    have hmem := List.mem_of_getElem? hm
    refine Prod.ext ?_ ?_
    · exact select?_eq_some.2 ⟨hm, (Material.resolvePass_of_named (hn m hmem) hp).1⟩
    · cases hname : p.name? with
      | none => simp [Catalog.renderPassFor, hname]
      | some n => simpa using h.renderPassFor hi hmem hp hname first
  -- a request has the place of its material, so that the materials are taken with their places
  have hplaces : c.passes =
      c.materials.zipIdx.flatMap fun mi => mi.1.passes.map (mi.1, ·) := by
    conv_lhs => rw [passes, ← List.zipIdx_map_fst 0 c.materials, List.flatMap_map]
  rw [hplaces, passRequests, hrest, List.map_flatMap, List.map_flatMap]
  refine List.flatMap_congr fun mi hmi => ?_
  rw [List.map_map, List.map_map]
  exact List.map_congr_left fun p hp => hrequest mi.1 mi.2 (List.mem_zipIdx_iff_getElem?.1 hmi) p hp

end Catalog

namespace MaterialSystem

variable {σ : Type} {tools : Toolchain σ} {s : MaterialSystem σ} {src : Source}
  {r q : PipelineRequest} {p : CompiledPipeline} {rs : List PassRequest}

/-! ### What the cache has for a request -/

/-- What is kept under the key of a request. -/
def cached? (s : MaterialSystem σ) (r : PipelineRequest) : Option CompiledPipeline :=
  (s.catalog.key? r).bind fun k => s.pipelines.entries.value? k.value

/-- The pipeline of a request: what is kept under its key, if that was made for it. -/
def pipelineOf? (s : MaterialSystem σ) (r : PipelineRequest) : Option CompiledPipeline :=
  (s.cached? r).filter fun p => s.catalog.origin? r = some p.origin

theorem cached?_eq_some : s.cached? r = some p ↔
    ∃ k, s.catalog.key? r = some k ∧ s.pipelines.entries.value? k.value = some p :=
  Option.bind_eq_some_iff

/-- After a request the cache has for it what was served, and nothing when the request failed. -/
theorem Attributed.cached?_serve (h : s.Attributed) (src : Source) (r : PipelineRequest) :
    (s.serve src r).2.cached? r = (s.serve src r).1.toOption := by
  rcases hserve : s.serve src r with ⟨e | p, s'⟩
  · have hcat := (sameLoad_serve h.indexed src r).catalog
    rw [hserve] at hcat
    have hnone : s.cached? r = none := Option.eq_none_iff_forall_ne_some.2 fun p hp => by
      obtain ⟨k, hk, hp⟩ := cached?_eq_some.1 hp
      rw [serve_of_entry hk hp] at hserve
      cases (Prod.mk.inj hserve).1
    rw [cached?, hcat, entries_of_error h.indexed hserve]
    exact hnone
  · obtain ⟨hcat, hkey, hp, -⟩ := h.of_serve hserve
    exact cached?_eq_some.2 ⟨p.hash, hcat ▸ hkey, hp⟩

/-- What the cache has for a request stays when others are made. -/
theorem Attributed.cached?_of_some (h : s.Attributed) (src : Source) (r : PipelineRequest)
    (hp : s.cached? q = some p) : (s.serve src r).2.cached? q = some p := by
  obtain ⟨k, hk, hp⟩ := cached?_eq_some.1 hp
  refine cached?_eq_some.2 ⟨k, ?_, kept_of_serve h.indexed src r hp⟩
  rw [(sameLoad_serve h.indexed src r).catalog]
  exact hk

/-- A request of another key changes nothing in it. -/
theorem Attributed.cached?_serve_other (h : s.Attributed) (src : Source)
    (hkey : s.catalog.key? r ≠ s.catalog.key? q) : (s.serve src r).2.cached? q = s.cached? q := by
  have hcat := (sameLoad_serve h.indexed src r).catalog
  rcases (pipelines_serve h.indexed src r).2 with e | ⟨p, s', hserve, -, e⟩
  · rw [cached?, hcat, e]
    rfl
  · rw [hserve] at hcat ⊢
    obtain ⟨-, hp, -⟩ := h.of_serve hserve
    dsimp only at hcat ⊢
    rw [cached?, cached?, hcat, e]
    refine Option.bind_congr fun k hk => Table.value?_assign_other _ _ fun hsame => hkey ?_
    obtain rfl : p.hash = k := congrArg PipelineHash.mk hsame
    rw [hp, hk]

/-- A pipeline that is served was made for the request, if what the cache had for it was. -/
theorem origin_of_serve (hi : s.catalog.Indexed)
    (hown : ∀ p, s.cached? r = some p → s.catalog.origin? r = some p.origin)
    (hserve : (s.serve src r).1 = .ok p) : s.catalog.origin? r = some p.origin := by
  have hs := serving hi src r
  generalize s.serve src r = a at hs hserve
  cases hs with
  | unselected _ => cases hserve
  | found hsel hk hp =>
      obtain rfl := Except.ok.inj hserve
      refine hown _ (cached?_eq_some.2 ⟨_, ?_, hp⟩)
      rw [Catalog.key?, hsel, hk]
      rfl
  | unknown _ => cases hserve
  | failed _ _ _ => cases hserve
  | built hsel hc hb _ =>
      obtain rfl := Except.ok.inj hserve
      exact (build_request hi hsel hc hb).2

/-! ### Requests in a row -/

theorem buildEach_cons (src : Source) (s : MaterialSystem σ) (r : PassRequest)
    (rs : List PassRequest) : buildEach src s (r :: rs) =
      (⟨r, (s.serve src r.asked).1⟩ :: (buildEach src (s.serve src r.asked).2 rs).1,
        (buildEach src (s.serve src r.asked).2 rs).2) := rfl

/-- Each request is made, whatever the others come to. -/
theorem request_buildEach (src : Source) (s : MaterialSystem σ) (rs : List PassRequest) :
    (buildEach src s rs).1.map (·.request) = rs := by
  induction rs generalizing s with
  | nil => rfl
  | cons r rs ih => rw [buildEach_cons, List.map_cons, ih]

theorem Attributed.cached?_buildEach_of_some (h : s.Attributed) (src : Source)
    (rs : List PassRequest) (hp : s.cached? q = some p) :
    (buildEach src s rs).2.cached? q = some p := by
  induction rs generalizing s with
  | nil => exact hp
  | cons r rs ih => exact ih (h.serve src r.asked) (h.cached?_of_some src r.asked hp)

/-- What was served in a run is what the cache has in the end. -/
theorem Attributed.served_cached (h : s.Attributed) {x : PassResult}
    (hx : x ∈ (buildEach src s rs).1) (hp : x.result = .ok p) :
    (buildEach src s rs).2.cached? x.request.asked = some p := by
  induction rs generalizing s with
  | nil => cases hx
  | cons r rs ih =>
      rw [buildEach_cons] at hx ⊢
      rcases List.mem_cons.1 hx with rfl | hx
      · refine (h.serve src r.asked).cached?_buildEach_of_some src rs ?_
        rw [h.cached?_serve]
        exact Result.toOption_eq_some.2 hp
      · exact ih (h.serve src r.asked) hx

theorem Attributed.cached?_buildEach_other (h : s.Attributed) (src : Source)
    (hrs : s.catalog.key? q ∉ rs.map fun r => s.catalog.key? r.asked) :
    (buildEach src s rs).2.cached? q = s.cached? q := by
  induction rs generalizing s with
  | nil => rfl
  | cons r rs ih =>
      rw [List.map_cons, List.mem_cons, not_or] at hrs
      have hcat := (sameLoad_serve h.indexed src r.asked).catalog
      rw [buildEach_cons]
      refine (ih (h.serve src r.asked) ?_).trans (h.cached?_serve_other src (Ne.symm hrs.1))
      rw [hcat]
      exact hrs.2

/-- Different requests have different keys, and what is kept under them was made for them. -/
structure Separate (s : MaterialSystem σ) (rs : List PassRequest) : Prop where
  keys : (rs.map fun r => s.catalog.key? r.asked).Nodup
  own  : ∀ r ∈ rs, ∀ p, s.cached? r.asked = some p → s.catalog.origin? r.asked = some p.origin

/-- The first of separate requests leaves the others separate. -/
theorem Separate.serve {r : PassRequest} (hs : s.Separate (r :: rs)) (h : s.Attributed)
    (src : Source) : (s.serve src r.asked).2.Separate rs := by
  have hcat := (sameLoad_serve h.indexed src r.asked).catalog
  obtain ⟨hnew, hkeys⟩ := List.nodup_cons.1 hs.keys
  refine ⟨by rw [hcat]; exact hkeys, fun q hq p hp => ?_⟩
  have hother : s.catalog.key? r.asked ≠ s.catalog.key? q.asked := fun e =>
    hnew (List.mem_map.2 ⟨q, hq, e.symm⟩)
  rw [h.cached?_serve_other src hother] at hp
  rw [hcat]
  exact hs.own q (List.mem_cons_of_mem r hq) p hp

/-- What separate requests come to is what the cache has of their own in the end. -/
theorem Separate.toOption_eq_pipelineOf? (hs : s.Separate rs) (h : s.Attributed) {x : PassResult}
    (hx : x ∈ (buildEach src s rs).1) :
    x.result.toOption = (buildEach src s rs).2.pipelineOf? x.request.asked := by
  induction rs generalizing s with
  | nil => cases hx
  | cons r rs ih =>
      have hnext := h.serve src r.asked
      have hcat := (sameLoad_serve h.indexed src r.asked).catalog
      rw [buildEach_cons] at hx ⊢
      rcases List.mem_cons.1 hx with rfl | hx
      · -- the others have other keys, so that what the first one came to stays
        have hkeys := (List.nodup_cons.1 hs.keys).1
        rw [← hcat] at hkeys
        rw [pipelineOf?, hnext.cached?_buildEach_other src hkeys, h.cached?_serve,
          (sameLoad_buildEach hnext.indexed src rs).catalog, hcat]
        cases hp : (s.serve src r.asked).1 with
        | error e => rfl
        | ok p =>
            have hown := origin_of_serve h.indexed (hs.own r List.mem_cons_self) hp
            simp [Except.toOption, Option.filter, hown]
      · exact ih (hs.serve h src) hnext hx

/-! ### Building everything -/

/-- What building everything does. -/
structure BuildsAll (s : MaterialSystem σ) (src : Source) : Prop where
  /-- Without render passes nothing is asked for. -/
  nothing  : s.catalog.renderPasses = [] → s.buildAll src = ([], s)
  /-- The materials are in the order of a document. -/
  ordered  : ∃ config src root d, Document.load src root = .ok d ∧
    s.catalog.ids = Catalog.loadedIds config src d
  made     : (s.buildAll src).1.map (·.request) = s.catalog.passRequests
  /-- Each pass of each material is asked for once, in order. -/
  selected : ∀ first ∈ s.catalog.renderPasses.head?,
    s.catalog.passRequests.map (fun r => (s.catalog.select? r.asked, r.renderPass)) =
      s.catalog.passes.map fun mp => (some mp, mp.2.name?.getD first.name)
  /-- What was served is in the cache afterwards. -/
  served   : ∀ x ∈ (s.buildAll src).1, ∀ p, x.result = .ok p →
    (s.buildAll src).2.cached? x.request.asked = some p
  /-- Nothing has failed only if the cache has something for each of them. -/
  complete : PassResult.failures (s.buildAll src).1 = 0 → ∀ r ∈ s.catalog.passRequests,
    ((s.buildAll src).2.cached? r.asked).isSome = true
  /-- The failures are the passes that have no pipeline of their own afterwards. -/
  counted  : s.Separate s.catalog.passRequests →
    (∀ x ∈ (s.buildAll src).1, x.result.toOption = (s.buildAll src).2.pipelineOf? x.request.asked) ∧
    PassResult.failures (s.buildAll src).1 =
      s.catalog.passRequests.countP fun r => (s.buildAll src).2.pipelineOf? r.asked = none

theorem failures_eq_countP (hs : s.Separate rs) (h : s.Attributed) (src : Source) :
    PassResult.failures (buildEach src s rs).1 =
      rs.countP fun r => (buildEach src s rs).2.pipelineOf? r.asked = none := by
  -- the requests are those of the results, and each result says what the cache has in the end
  have hcount : ∀ f : PassRequest → Bool,
      rs.countP f = (buildEach src s rs).1.countP (f ∘ PassResult.request) := fun f => by
    rw [← List.countP_map, request_buildEach]
  rw [hcount]
  refine List.countP_congr fun x hx => ?_
  rw [Function.comp_apply, ← hs.toOption_eq_pipelineOf? h hx, PassResult.isFailure]
  cases x.result <;> simp [Except.isOk, Except.toBool, Except.toOption]

theorem Attributed.complete_of_failures (h : s.Attributed)
    (hzero : PassResult.failures (buildEach src s rs).1 = 0) :
    ∀ r ∈ rs, ((buildEach src s rs).2.cached? r.asked).isSome = true := by
  intro r hr
  rw [← request_buildEach src s rs] at hr
  obtain ⟨x, hx, rfl⟩ := List.mem_map.1 hr
  have hok := List.countP_eq_zero.1 hzero x hx
  rw [PassResult.isFailure, Bool.not_eq_true', Bool.not_eq_false, Result.isOk_iff] at hok
  obtain ⟨p, hp⟩ := hok
  rw [h.served_cached hx hp]
  rfl

theorem Reachable.buildsAll (h : Reachable tools s) (src : Source) : s.BuildsAll src := by
  obtain ⟨-, config, src', root, hload⟩ := h.loaded
  obtain ⟨d, hd, hids⟩ := Catalog.ids_of_load hload
  exact {
    nothing := fun hnone => by
      have hempty : s.catalog.passRequests = [] := by rw [Catalog.passRequests, hnone]
      rw [buildAll, hempty]
      rfl
    ordered := ⟨config, src', root, d, hd, hids⟩
    made := request_buildEach src s s.catalog.passRequests
    selected := fun first hfirst =>
      h.closed.select_passRequests h.attributed.indexed (fun m hm => h.named hm) hfirst
    served := fun x hx p hp => h.attributed.served_cached hx hp
    complete := fun hzero => h.attributed.complete_of_failures hzero
    counted := fun hs => ⟨fun x hx => hs.toOption_eq_pipelineOf? h.attributed hx,
      failures_eq_countP hs h.attributed src⟩ }

/-- A system that has built nothing needs no more than different keys. -/
theorem separate_of_entries_eq_nil (h : s.pipelines.entries = [])
    (hkeys : (rs.map fun r => s.catalog.key? r.asked).Nodup) : s.Separate rs where
  keys := hkeys
  own r hr p hp := by
    obtain ⟨k, -, hp⟩ := cached?_eq_some.1 hp
    rw [h] at hp
    cases hp

/-- In every run: without render passes nothing is asked for.  Otherwise the pipeline of every pass
of every material is asked for once, in order, whatever fails in between; each that is served is in
the cache afterwards, so that nothing has failed only if there is a pipeline under the key of every
pass.  When different passes have different keys, and what is kept under them was made for them, the
failures are exactly the passes without a pipeline of their own.  The command line starts with an
empty cache, and ends with success exactly when none of the passes it asks for is without one. -/
theorem builds_all :
    (∀ {σ : Type} {tools : Toolchain σ} {s : MaterialSystem σ}, Reachable tools s →
      ∀ src, s.BuildsAll src) ∧
    ∀ (tools : Toolchain Counts) (d : Disk) (o : CommandLine.Options) config root s,
      o.systemConfig d = .ok config →
      CommandLine.loadSystem tools config (DirectorySource.toSource ⟨o.assets⟩ d) root = .ok s →
      (s.catalog.passRequests.map fun r => s.catalog.key? r.asked).Nodup →
      (CommandLine.answer tools d (.run o .build root)).next = .exit
        (if ∀ r ∈ s.catalog.passRequests,
            (s.buildAll (DirectorySource.toSource ⟨o.assets⟩ d)).2.pipelineOf? r.asked ≠ none
          then 0 else 1) := by
  refine ⟨fun h src => h.buildsAll src, fun tools d o config root s hconfig hload hkeys => ?_⟩
  obtain ⟨path, catalog, -, hs⟩ := eq_of_load hload
  have hreach : Reachable tools s := .load {} config _ root hload
  have hempty : s.pipelines.entries = [] := by rw [hs]
  have hcount := ((hreach.buildsAll (DirectorySource.toSource ⟨o.assets⟩ d)).counted
    (separate_of_entries_eq_nil hempty hkeys)).2
  have hzero : PassResult.failures (s.buildAll (DirectorySource.toSource ⟨o.assets⟩ d)).1 = 0 ↔
      ∀ r ∈ s.catalog.passRequests,
        (s.buildAll (DirectorySource.toSource ⟨o.assets⟩ d)).2.pipelineOf? r.asked ≠ none := by
    rw [hcount, List.countP_eq_zero]
    simp
  simp only [CommandLine.answer, CommandLine.runAction, hconfig, CommandLine.build, hload,
    CommandLine.Answer.ofOutcome, decide_eq_true_eq]
  congr 1
  simp only [hzero]

end MaterialSystem

/-- Tools that take everything: code is what it was asked for, without bindings. -/
def Toolchain.plain : Toolchain Counts where
  compile _ r := match Stage.ofProfile? r.profile with
    | some stage => .ok ⟨stage, r.entry, []⟩
    | none       => .error "unknown profile"
  reflect _ := .ok []
  backend := .simulated

/-! ### A failure in front -/

namespace FailsFirst

open MaterialSystem

/-- The first material has no vertex shader. -/
def rootText : String :=
  "\x7b\"materials\":[\x7b\"id\":\"m1\",\"shaders\":\x7b\"pixel\":" ++
    "\x7b\"file\":\"a.wgsl\",\"profile\":\"ps_6_0\"\x7d\x7d\x7d," ++
  "\x7b\"id\":\"m2\",\"shaders\":\x7b\"vertex\":" ++
    "\x7b\"file\":\"a.wgsl\",\"profile\":\"vs_6_0\"\x7d\x7d\x7d]," ++
  "\"renderPasses\":[\x7b\"name\":\"p\"\x7d]\x7d"

def disk : Disk where
  files := [
    (["assets", "root.json"], Text.encodeUtf8 rootText),
    (["assets", "a.wgsl"], [])]

def options : CommandLine.Options := { assets? := some "assets" }

def files : Source := DirectorySource.toSource ⟨"assets"⟩ disk

/-- The keys of the two requests differ, and one of them has no pipeline afterwards. -/
def buildsSecond (s : MaterialSystem Counts) : Bool :=
  (s.catalog.passRequests.map fun r => s.catalog.key? r.asked).Nodup &&
    (s.catalog.passRequests.length = 2 &&
      (s.catalog.passRequests.countP fun r => (s.buildAll files).2.pipelineOf? r.asked = none) = 1)

set_option maxRecDepth 100000 in
theorem exists_buildsSecond : ∃ s, CommandLine.loadSystem .plain {} files "root.json" = .ok s ∧
    buildsSecond s = true := by
  have h : (match CommandLine.loadSystem .plain {} files "root.json" with
      | .ok s    => buildsSecond s
      | .error _ => false) = true := by decide +kernel
  split at h
  · next s hload => exact ⟨s, hload, h⟩
  · cases h

theorem systemConfig_options : options.systemConfig disk = .ok {} := rfl

/-- The command line builds the second material, and ends with the status of the first one. -/
theorem builds_second : ∃ s, Reachable .plain s ∧
    CommandLine.loadSystem .plain {} files "root.json" = .ok s ∧
    options.systemConfig disk = .ok {} ∧ s.Separate s.catalog.passRequests ∧ s.BuildsAll files ∧
    (s.buildAll files).1.length = 2 ∧ PassResult.failures (s.buildAll files).1 = 1 ∧
    (CommandLine.answer .plain disk (.run options .build "root.json")).next = .exit 1 := by
  obtain ⟨s, hload, h⟩ := exists_buildsSecond
  simp only [buildsSecond, Bool.and_eq_true, decide_eq_true_eq] at h
  obtain ⟨hkeys, htwo, hone⟩ := h
  have hs : Reachable .plain s := .load {} {} files "root.json" hload
  obtain ⟨path, catalog, -, hempty⟩ := eq_of_load hload
  have hseparate : s.Separate s.catalog.passRequests :=
    separate_of_entries_eq_nil (by rw [hempty]) hkeys
  have hall := builds_all.1 hs files
  have hstatus := builds_all.2 .plain disk options {} "root.json" s systemConfig_options hload hkeys
  refine ⟨s, hs, hload, systemConfig_options, hseparate, hall, ?_, ?_, ?_⟩
  · rw [← List.length_map, hall.made, htwo]
  · rw [(hall.counted hseparate).2, hone]
  · rw [hstatus, if_neg]
    intro hnone
    obtain ⟨r, hr, hfails⟩ := List.countP_pos_iff.1 (hone ▸ Nat.one_pos)
    exact hnone r hr (of_decide_eq_true hfails)

end FailsFirst

/-! ### Materials without a render pass -/

namespace NoRenderPass

open MaterialSystem

/-- The only pass of the material has no name, and needs no render pass to be loaded. -/
def rootText : String :=
  "\x7b\"materials\":[\x7b\"id\":\"m\",\"shaders\":\x7b\"vertex\":" ++
    "\x7b\"file\":\"lit.wgsl\",\"profile\":\"vs_6_0\"\x7d\x7d\x7d],\"renderPasses\":[]\x7d"

def files : Source :=
  ((({} : MemorySource).insertText "root.json" rootText).insertText "lit.wgsl" "").toSource

set_option maxRecDepth 100000 in
theorem load_onePass : (CommandLine.loadSystem .plain {} files "root.json").toOption.any
    (fun s => s.catalog.renderPasses = [] && s.catalog.materials.map (·.passes.length) = [1]) =
      true := by
  decide +kernel

/-- Not every pass has a pipeline when nothing has failed. -/
theorem not_complete : ¬ ∀ s, Reachable .plain s → ∀ src,
    PassResult.failures (s.buildAll src).1 = 0 → ∀ m ∈ s.catalog.materials, ∀ p ∈ m.passes,
    ∃ q ∈ (s.buildAll src).2.pipelines.entries.values, q.material = m.id ∧ q.pass? = p.name? := by
  intro hall
  obtain ⟨s, hload, h⟩ := (Option.any_eq_true _ _).1 load_onePass
  have hload := Result.toOption_eq_some.1 hload
  simp only [Bool.and_eq_true, decide_eq_true_eq] at h
  obtain ⟨hnone, hone⟩ := h
  have hs : Reachable .plain s := .load {} {} files "root.json" hload
  obtain ⟨path, catalog, -, hempty⟩ := eq_of_load hload
  have hbuilt : s.buildAll files = ([], s) := (hs.buildsAll files).nothing hnone
  obtain ⟨m, hm, hlength⟩ : ∃ m ∈ s.catalog.materials, m.passes.length = 1 := by
    have hmem : 1 ∈ s.catalog.materials.map (·.passes.length) := by simp [hone]
    exact List.mem_map.1 hmem
  obtain ⟨p, hp⟩ := List.length_eq_one_iff.1 hlength
  obtain ⟨q, hq, -⟩ := hall s hs files (by rw [hbuilt]; rfl) m hm p (by simp [hp])
  rw [hbuilt, hempty] at hq
  cases hq

end NoRenderPass

end RenderMaterials
