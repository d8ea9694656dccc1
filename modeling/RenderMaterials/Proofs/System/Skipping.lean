import RenderMaterials.Proofs.Document.Listed
import RenderMaterials.Proofs.Material.Parameters

/-!
# Loading — entries that are passed over

An entry that fails with an error that is only reported can be passed over.  Its faults may come up
in the checks, where it is read, and through what refers to it.  In each of these a document without
such entries gives the same: a load that passes entries over is the load of a document that never
had them.

* `Document.withoutItems`: a document without some items of its sections, and what is left of these.
* `Document.withoutSkipped`: a document without the entries that are passed over.
* `Catalog.read_withoutItems`: deleting some of them changes nothing.
* `Catalog.Finds`, `Catalog.fatal_kept`: an error that a step finds and that is fatal is among those
  that the load fails with.
* `Catalog.skipping_eq_deleting`: the load of a document and the load of one without these entries.
* `TwoFaults.both_deleted`: a document with a material and a render pass that are passed over.
-/

namespace RenderMaterials

/-! ### Lists without some items -/

section Dropping

variable {α β : Type} {drop : α → Bool}

/-- Items that give nothing can be dropped. -/
theorem flatMap_dropped {f : α → List β} (h : ∀ a, drop a = true → f a = []) (as : List α) :
    (as.filter (!drop ·)).flatMap f = as.flatMap f := by
  induction as with
  | nil => rfl
  | cons a as ih =>
      cases ha : drop a with
      | true =>
          rw [List.filter_cons_of_neg (by simp [ha]), List.flatMap_cons, h a ha, ih,
            List.nil_append]
      | false =>
          rw [List.filter_cons_of_pos (by simp [ha]), List.flatMap_cons, ih, List.flatMap_cons]

theorem filterMap_dropped {f : α → Option β} (h : ∀ a, drop a = true → f a = none) (as : List α) :
    (as.filter (!drop ·)).filterMap f = as.filterMap f := by
  rw [List.filterMap_eq_flatMap_toList, List.filterMap_eq_flatMap_toList]
  refine flatMap_dropped (fun a ha => ?_) as
  rw [h a ha]
  rfl

end Dropping

/-! ### Documents without some items -/

/-- A list without some of its items; other values stay. -/
def Json.dropItems (drop : Json → Bool) : Json → Json
  | array items => array (items.filter (!drop ·))
  | v           => v

namespace Document

/-- The document without some items of its sections that are lists. -/
def withoutItems (drop : String → Json → Bool) (d : Document) : Document :=
  { d with root := d.root.map fun e => (e.1, e.2.dropItems (drop e.1)) }

section Sections

variable (drop : String → Json → Bool) (d : Document)

theorem value?_withoutItems (key : String) : (d.withoutItems drop).root.value? key =
    (d.root.value? key).map (Json.dropItems (drop key)) :=
  Table.value?_map d.root (fun key v => v.dropItems (drop key)) key

theorem items_withoutItems (key : String) :
    (d.withoutItems drop).items key = (d.items key).filter (!drop key ·) := by
  rw [items, items, value?_withoutItems]
  cases d.root.value? key with
  | none => rfl
  | some v => cases v <;> rfl

theorem fields?_withoutItems (key : String) :
    (d.withoutItems drop).fields? key = d.fields? key := by
  rw [fields?, fields?, value?_withoutItems]
  cases d.root.value? key with
  | none => rfl
  | some v => cases v <;> rfl

theorem sameForm_withoutItems (key : String) :
    SameForm (d.root.value? key) ((d.withoutItems drop).root.value? key) := by
  rw [value?_withoutItems]
  cases d.root.value? key with
  | none => exact .same none
  | some v =>
      cases v with
      | array items => exact .list items _
      | object fields => exact .same _
      | null => exact .same _
      | bool b => exact .same _
      | number n => exact .same _
      | text s => exact .same _

end Sections

end Document

/-! ### Entries that are passed over -/

/-- Whether an error is about the type of a parameter. -/
def MaterialError.isUnknownType : MaterialError → Bool
  | .unknownParameterType .. => true
  | _                        => false

namespace Document

/-- Whether the checks find a parameter of an unknown type in an entry. -/
def hasUnknownType (v : Json) : Bool := (parameterFaults v).any (·.isUnknownType)

/-- Whether an entry fails with an error that is only reported, and has no parameter of an unknown
type, which the checks would not let pass. -/
def isSkipped {α : Type} (read : Json → Except MaterialError α) (v : Json) : Bool :=
  (errorOf (read v)).any (!·.isFatal) && !hasUnknownType v

/-- The entries of a section that are passed over. -/
def skipped (ctx : ReadContext) : String → Json → Bool
  | "materials"    => isSkipped (Material.read ctx)
  | "renderPasses" => isSkipped RenderPass.read
  | _              => fun _ => false

/-- The document without the materials and render passes that are passed over. -/
def withoutSkipped (config : SystemConfig) (src : Source) (d : Document) : Document :=
  d.withoutItems (skipped (.ofDocument src config.shaderRoot d))

theorem exists_of_isSkipped {α : Type} {read : Json → Except MaterialError α} {v : Json}
    (h : isSkipped read v = true) :
    (∃ e, read v = .error e ∧ e.isFatal = false) ∧ hasUnknownType v = false := by
  simpa [isSkipped, Option.any_eq_true, errorOf_eq_some] using h

/-- Of the parameters of an entry without unknown types, the checks find only what does not end a
load that passes entries over. -/
theorem reported_of_mem_parameterFaults {v : Json} (hv : hasUnknownType v = false)
    {e : MaterialError} (he : e ∈ parameterFaults v) :
    ∃ name reason, e = .invalidParameter name reason := by
  have hknown : ¬ e.isUnknownType = true := List.any_eq_false.1 hv e he
  obtain ⟨p, -, hp⟩ := mem_parameterFaults.1 he
  unfold Parameter.check at hp
  dsimp only at hp
  split at hp
  · cases hp
    exact ⟨_, _, rfl⟩
  · split at hp
    · cases hp
      exact absurd rfl hknown
    · split at hp
      · cases hp
      · split at hp
        · cases hp
        · cases hp
          exact ⟨_, _, rfl⟩

end Document

namespace Catalog

variable {config : SystemConfig} {src : Source} {d : Document} {drop : String → Json → Bool}

theorem endsLoad_of_skip (hskip : config.skipInvalid = true) {e : MaterialError}
    (he : e.isFatal = false) : config.endsLoad e = false := by
  rw [SystemConfig.endsLoad, he, hskip]
  rfl

/-- Whether an error that the checks find ends a load. -/
def endsChecks (config : SystemConfig) (e : MaterialError) : Bool :=
  e matches .schema .. || config.endsLoad e

theorem checkErrors_eq (config : SystemConfig) (d : Document) : config.checkErrors d =
    if config.validate then
      (d.schemaErrors ++ d.parameterErrors).filter (endsChecks config) ++
        if config.duplicateIds = .reject then d.duplicates.map DuplicateId.toError else []
    else [] := rfl

/-- The checks find the same to end a load with. -/
theorem checkErrors_withoutItems (hskip : config.skipInvalid = true)
    (hwarn : config.duplicateIds = .warn)
    (hdrop : ∀ v, drop "materials" v = true → Document.hasUnknownType v = false) :
    config.checkErrors (d.withoutItems drop) = config.checkErrors d := by
  have hschema : (d.withoutItems drop).schemaErrors = d.schemaErrors :=
    Document.schemaErrors_of_sameForm (d.sameForm_withoutItems drop)
  have hnone : ∀ v, drop "materials" v = true →
      (Document.parameterFaults v).filter (endsChecks config) = [] := fun v hv => by
    rw [List.filter_eq_nil_iff]
    intro e he
    obtain ⟨name, reason, rfl⟩ := Document.reported_of_mem_parameterFaults (hdrop v hv) he
    simp [endsChecks, endsLoad_of_skip hskip (e := .invalidParameter name reason) rfl]
  have hparameters : (d.withoutItems drop).parameterErrors.filter (endsChecks config) =
      d.parameterErrors.filter (endsChecks config) := by
    rw [Document.parameterErrors_eq, Document.parameterErrors_eq, List.filter_flatMap,
      List.filter_flatMap, Document.materials, Document.items_withoutItems, flatMap_dropped hnone]
    rfl
  rw [checkErrors_eq, checkErrors_eq, List.filter_append, List.filter_append, hschema, hparameters,
    hwarn]
  rfl

theorem ofDocument_withoutItems (shaderRoot : String) :
    ReadContext.ofDocument src shaderRoot (d.withoutItems drop) = .ofDocument src shaderRoot d := by
  simp only [ReadContext.ofDocument, Document.shaders?, Document.defines?,
    Document.fields?_withoutItems]

section Entries

variable {α : Type} {read : Json → Except MaterialError α} {drop : Json → Bool} {vs : List Json}

/-- What can be read of some entries is there without those that are passed over. -/
theorem filterMap_toOption_dropped (hdrop : ∀ v, drop v = true → Document.isSkipped read v = true) :
    ((vs.filter (!drop ·)).map read).filterMap Except.toOption =
      (vs.map read).filterMap Except.toOption := by
  rw [List.filterMap_map, List.filterMap_map]
  refine filterMap_dropped (fun v hv => ?_) vs
  obtain ⟨⟨e, he, -⟩, -⟩ := Document.exists_of_isSkipped (hdrop v hv)
  rw [Function.comp_apply, he]
  rfl

/-- So are the errors that end a load. -/
theorem filter_errorOf_dropped (hskip : config.skipInvalid = true)
    (hdrop : ∀ v, drop v = true → Document.isSkipped read v = true) :
    (((vs.filter (!drop ·)).map read).filterMap Document.errorOf).filter config.endsLoad =
      ((vs.map read).filterMap Document.errorOf).filter config.endsLoad := by
  rw [List.filterMap_map, List.filterMap_map, List.filter_filterMap, List.filter_filterMap]
  refine filterMap_dropped (fun v hv => ?_) vs
  obtain ⟨⟨e, he, hfatal⟩, -⟩ := Document.exists_of_isSkipped (hdrop v hv)
  rw [Function.comp_apply, he]
  exact Option.filter_some_neg (by simp [endsLoad_of_skip hskip hfatal])

end Entries

/-- Deleting entries that are passed over changes nothing of a load. -/
theorem read_withoutItems (hskip : config.skipInvalid = true) (hwarn : config.duplicateIds = .warn)
    (hdrop : ∀ key v, drop key v = true →
      Document.skipped (.ofDocument src config.shaderRoot d) key v = true) :
    read config src (d.withoutItems drop) = read config src d := by
  have hm : ∀ v, drop "materials" v = true → Document.isSkipped
      (Material.read (.ofDocument src config.shaderRoot d)) v = true := hdrop "materials"
  have hr : ∀ v, drop "renderPasses" v = true → Document.isSkipped RenderPass.read v = true :=
    hdrop "renderPasses"
  have hchecks := checkErrors_withoutItems (d := d) hskip hwarn fun v hv =>
    (Document.exists_of_isSkipped (hm v hv)).2
  have hstates : (d.withoutItems drop).states? = d.states? := Document.fields?_withoutItems ..
  have hgather : gather config src (d.withoutItems drop) = gather config src d := by
    funext states
    have hmaterials : readMaterials config src (d.withoutItems drop) =
        readMaterials config src d := by
      rw [readMaterials, ofDocument_withoutItems, Document.materials, Document.items_withoutItems,
        filterMap_toOption_dropped hm]
      rfl
    have hpasses : readRenderPasses (d.withoutItems drop) = readRenderPasses d := by
      rw [readRenderPasses, Document.renderPasses, Document.items_withoutItems,
        filterMap_toOption_dropped hr]
      rfl
    rw [gather, gather, hmaterials, hpasses]
    rfl
  have hending : ∀ states, (entryFaults config src (d.withoutItems drop) states).filter
      config.endsLoad = (entryFaults config src d states).filter config.endsLoad := fun states => by
    simp only [entryFaults, List.filter_append, hgather, ofDocument_withoutItems,
      Document.materials, Document.renderPasses, Document.items_withoutItems,
      filter_errorOf_dropped hskip hm, filter_errorOf_dropped hskip hr]
  have hfinish : finish config src (d.withoutItems drop) = finish config src d := by
    funext states
    rw [finish, finish, hending, hgather]
  rw [read_eq, read_eq, hchecks, hstates, hfinish]

/-! ### Fatal errors -/

/-- The errors that the steps of a load come to.  A step is taken when those before it found nothing
that ends the load. -/
inductive Finds (config : SystemConfig) (src : Source) (d : Document) : MaterialError → Prop
  | check {e : MaterialError} (hvalidate : config.validate = true) (he : e ∈ d.check.errors) :
      Finds config src d e
  | states {e : MaterialError} (hchecks : config.checkErrors d = [])
      (he : StateRegistry.read d.states? = .error e) : Finds config src d e
  | material {e : MaterialError} {states : StateRegistry} {v : Json}
      (hchecks : config.checkErrors d = []) (hstates : StateRegistry.read d.states? = .ok states)
      (hv : v ∈ d.materials)
      (he : Material.read (.ofDocument src config.shaderRoot d) v = .error e) : Finds config src d e
  | renderPass {e : MaterialError} {states : StateRegistry} {v : Json}
      (hchecks : config.checkErrors d = []) (hstates : StateRegistry.read d.states? = .ok states)
      (hv : v ∈ d.renderPasses) (he : RenderPass.read v = .error e) : Finds config src d e
  | reference {e : MaterialError} {states : StateRegistry}
      (hchecks : config.checkErrors d = []) (hstates : StateRegistry.read d.states? = .ok states)
      (he : e ∈ (gather config src d states).unresolved) : Finds config src d e

theorem mem_entryFaults {e : MaterialError} {states : StateRegistry} :
    e ∈ entryFaults config src d states ↔
      (∃ v ∈ d.materials, Material.read (.ofDocument src config.shaderRoot d) v = .error e) ∨
      (∃ v ∈ d.renderPasses, RenderPass.read v = .error e) ∨
      e ∈ (gather config src d states).unresolved := by
  simp only [entryFaults, List.mem_append, List.mem_filterMap, List.mem_map,
    Document.errorOf_eq_some, exists_exists_and_eq_and, or_assoc]

/-- A fatal error that a load comes to is among those that it fails with. -/
theorem fatal_kept {e : MaterialError} (h : Finds config src d e) (hfatal : e.isFatal = true) :
    ∃ f, read config src d = .error f ∧ e ∈ f.errors := by
  have hends : config.endsLoad e = true := by
    rw [SystemConfig.endsLoad, hfatal]
    rfl
  have hentry : ∀ {states}, config.checkErrors d = [] → StateRegistry.read d.states? = .ok states →
      e ∈ entryFaults config src d states → ∃ f, read config src d = .error f ∧ e ∈ f.errors := by
    intro states hchecks hstates he
    have hmem := List.mem_filter.2 ⟨he, hends⟩
    rw [read_eq, if_pos hchecks, hstates]
    exact ⟨_, if_neg (List.ne_nil_of_mem hmem), hmem⟩
  cases h with
  | check hvalidate he =>
      have hmem : e ∈ config.checkErrors d := by
        have hcheck : endsChecks config e = true := Bool.or_eq_true_iff.2 (.inr hends)
        rw [checkErrors_eq, if_pos hvalidate]
        exact List.mem_append_left _ (List.mem_filter.2 ⟨he, hcheck⟩)
      rw [read_eq, if_neg (List.ne_nil_of_mem hmem)]
      exact ⟨_, rfl, hmem⟩
  | states hchecks he =>
      rw [read_eq, if_pos hchecks, he]
      exact ⟨.single e, rfl, List.mem_singleton_self e⟩
  | material hchecks hstates hv he =>
      exact hentry hchecks hstates (mem_entryFaults.2 (.inl ⟨_, hv, he⟩))
  | renderPass hchecks hstates hv he =>
      exact hentry hchecks hstates (mem_entryFaults.2 (.inr (.inl ⟨_, hv, he⟩)))
  | reference hchecks hstates he =>
      exact hentry hchecks hstates (mem_entryFaults.2 (.inr (.inr he)))

/-! ### Documents of the same root -/

theorem addMaterial_files (c : Catalog) (files : List String) (m : Material) :
    ({ c with files } : Catalog).addMaterial m = { c.addMaterial m with files } := by
  unfold addMaterial
  dsimp only
  split <;> rfl

theorem addRenderPass_files (c : Catalog) (files : List String) (r : RenderPass) :
    ({ c with files } : Catalog).addRenderPass r = { c.addRenderPass r with files } := by
  unfold addRenderPass
  dsimp only
  split <;> rfl

theorem foldl_files {α : Type} {add : Catalog → α → Catalog}
    (hadd : ∀ c files a, add { c with files } a = { add c a with files }) (as : List α)
    (c : Catalog) (files : List String) :
    as.foldl add { c with files } = { as.foldl add c with files } := by
  induction as generalizing c with
  | nil => rfl
  | cons a as ih => rw [List.foldl_cons, List.foldl_cons, hadd, ih]

/-- Documents with one root, read where the same shaders are found, are loaded alike: as catalogs
that differ in the names of the merged files, or with the same errors. -/
theorem read_of_root {src' : Source} {d' : Document} (hroot : d'.root = d.root)
    (hcontains : ∀ file, src'.contains file = src.contains file)
    (hdescribe : ∀ file, src'.describe file = src.describe file) :
    read config src' d' = (read config src d).map fun c => { c with files := d'.files } := by
  obtain ⟨root, files⟩ := d
  obtain ⟨root', files'⟩ := d'
  obtain rfl : root' = root := hroot
  have hread : Material.read (.ofDocument src' config.shaderRoot ⟨root', files'⟩) =
      Material.read (.ofDocument src config.shaderRoot ⟨root', files⟩) := by
    funext v
    exact Material.read_relisted ⟨hcontains, hdescribe, rfl, rfl, .refl (fun _ => .same) _⟩
      (.same v)
  have hgather : ∀ states, gather config src' ⟨root', files'⟩ states =
      { gather config src ⟨root', files⟩ states with files := files' } := fun states => by
    have hmaterials : (readMaterials config src ⟨root', files⟩).foldl addMaterial
        { states, files := files' } = _ := foldl_files addMaterial_files _ { states, files } files'
    rw [gather, readMaterials, hread]
    change (readRenderPasses ⟨root', files⟩).foldl addRenderPass
      ((readMaterials config src ⟨root', files⟩).foldl addMaterial { states, files := files' }) = _
    rw [hmaterials]
    exact foldl_files addRenderPass_files _ _ files'
  have hfaults : entryFaults config src' ⟨root', files'⟩ =
      entryFaults config src ⟨root', files⟩ := by
    funext states
    rw [entryFaults, hread, hgather]
    rfl
  have hfinish : ∀ states, finish config src' ⟨root', files'⟩ states =
      (finish config src ⟨root', files⟩ states).map fun c => { c with files := files' } :=
    fun states => by
      unfold finish
      rw [hfaults, hgather]
      dsimp only
      split <;> rfl
  rw [read_eq, read_eq]
  change (if config.checkErrors ⟨root', files⟩ = [] then
    (StateRegistry.read (Document.mk root' files).states?).mapError .single >>=
      finish config src' ⟨root', files'⟩ else _) = _
  split
  · cases StateRegistry.read (Document.mk root' files).states? with
    | error e => rfl
    | ok states => exact hfinish states
  · rfl

/-! ### Skipping and deleting -/

/-- Where entries are passed over and ids may be declared twice, a load is that of the document
without the entries that are passed over, or without some of them, with the same catalog or the same
errors.  So it is where that document is itself put together from files of a source in which the
same shaders are found.  And no fatal error is lost. -/
theorem skipping_eq_deleting (hskip : config.skipInvalid = true)
    (hwarn : config.duplicateIds = .warn) (src : Source) (d : Document) :
    read config src (d.withoutSkipped config src) = read config src d ∧
    (∀ drop : String → Json → Bool, (∀ key v, drop key v = true →
        Document.skipped (.ofDocument src config.shaderRoot d) key v = true) →
      read config src (d.withoutItems drop) = read config src d) ∧
    (∀ src' root root' d', Document.load src root = .ok d → Document.load src' root' = .ok d' →
      d'.root = (d.withoutSkipped config src).root →
      (∀ file, src'.contains file = src.contains file) →
      (∀ file, src'.describe file = src.describe file) →
      load config src' root' = (load config src root).map fun c => { c with files := d'.files }) ∧
    ∀ e, Finds config src d e → e.isFatal = true →
      ∃ f, read config src d = .error f ∧ e ∈ f.errors := by
  have hread : read config src (d.withoutSkipped config src) = read config src d :=
    read_withoutItems hskip hwarn fun _ _ => id
  refine ⟨hread, fun drop hdrop => read_withoutItems hskip hwarn hdrop, ?_,
    fun e he hfatal => fatal_kept he hfatal⟩
  intro src' root root' d' hd hd' hroot hcontains hdescribe
  have hload : ∀ {src : Source} {root : String} {d : Document}, Document.load src root = .ok d →
      load config src root = read config src d := fun h => by rw [load, h, Result.ok_bind]
  rw [hload hd, hload hd', ← hread]
  exact read_of_root hroot hcontains hdescribe

end Catalog

/-! ### A material and a render pass that are passed over -/

namespace TwoFaults

def config : SystemConfig := { skipInvalid := true }

def source : Source := (({} : MemorySource).insertText "a" "").toSource

/-- A material that can be read. -/
def lit : Json :=
  .object [("id", .text "lit"), ("shaders", .object [("vertex", .object [("file", .text "a"),
    ("profile", .text "vs_6_0")])])]

/-- A material whose parameter has no type, which the checks report. -/
def untyped : Json := .object [("id", .text "untyped"), ("parameters", .array [.object []])]

def forward : Json := .object [("name", .text "forward")]

def document (materials renderPasses : List Json) : Document where
  root := [("materials", .array materials), ("renderPasses", .array renderPasses)]

/-- The second material and the second render pass, which has no name, are passed over. -/
def faulty : Document := document [lit, untyped] [forward, .object []]

def clean : Document := document [lit] [forward]

def context : ReadContext := .ofDocument source config.shaderRoot faulty

theorem skipped_faulty :
    [lit, untyped].map (Document.skipped context "materials") = [false, true] ∧
    [forward, .object []].map (Document.skipped context "renderPasses") = [false, true] ∧
    (Catalog.read config source faulty).isOk = true := by
  decide +kernel

theorem withoutSkipped_faulty : faulty.withoutSkipped config source = clean := by
  obtain ⟨hm, hr, -⟩ := skipped_faulty
  simp only [List.map_cons, List.map_nil, List.cons.injEq, and_true] at hm hr
  have hmaterials : [lit, untyped].filter (!Document.skipped context "materials" ·) = [lit] := by
    simp [hm]
  have hpasses : [forward, .object []].filter (!Document.skipped context "renderPasses" ·) =
      [forward] := by
    simp [hr]
  exact congrArg₂ document hmaterials hpasses

/-- Both documents are loaded, as one catalog. -/
theorem both_deleted : faulty.withoutSkipped config source = clean ∧
    Catalog.read config source clean = Catalog.read config source faulty ∧
    (Catalog.read config source faulty).isOk = true := by
  have h : Catalog.read config source (faulty.withoutSkipped config source) =
      Catalog.read config source faulty :=
    (Catalog.skipping_eq_deleting rfl rfl source faulty).1
  rw [withoutSkipped_faulty] at h
  exact ⟨withoutSkipped_faulty, h, skipped_faulty.2.2⟩

end TwoFaults

end RenderMaterials
