import Mathlib.Data.List.Sort
import Mathlib.Data.String.Basic
import RenderMaterials.Proofs.Material.Rewritten
import RenderMaterials.Proofs.Material.WellFormed

/-!
# Reading materials — defines as sets

The defines of a shader can be written as a list of entries or as an object of names and values, in
any order and with repetitions, and those of the document in any order.  What is read has each entry
of the two once, in order; so nothing that is made of it, no name, id or key, depends on how they
were written.

* `Define.Stands`: what a field of a defines object stands for.
* `Define.Holds`, `Define.SameEntries`: the entries of a value that declares defines.
* `ShaderReference.Redefined`, `Document.Redefined`: declarations, and documents with libraries and
  defines of their own, in which defines are written in other ways.
* `ShaderReference.read_of_sameEntries`: they are read alike, and what is read has the entries of
  the declaration and of the document in strict order.
* `ShaderReference.ThreeWays.all_alike`: a list, an object and a list with repetitions.
-/

namespace RenderMaterials

open Json (AgreeBut Fieldwise Itemwise)

/-! ### Entries -/

namespace Define

/-- A field of a defines object stands for an entry: for its name alone, or for its name with its
value.  A field that is `false` stands for none. -/
inductive Stands : String × Json → String → Prop
  | flag (name : String) : Stands (name, .bool true) name
  | null (name : String) : Stands (name, .null) name
  | empty (name : String) : Stands (name, .text "") name
  | text (name : String) {s : String} (h : s ≠ "") : Stands (name, .text s) s!"{name}={s}"
  | number (name : String) (n : JsonNumber) :
      Stands (name, .number n) s!"{name}={(Json.number n).compact}"
  | array (name : String) (items : List Json) :
      Stands (name, .array items) s!"{name}={(Json.array items).compact}"
  | object (name : String) (fields : List (String × Json)) :
      Stands (name, .object fields) s!"{name}={(Json.object fields).compact}"

theorem ofField_eq_some_iff {e : String × Json} {d : String} : ofField e = some d ↔ Stands e d := by
  obtain ⟨name, v⟩ := e
  constructor
  · intro h
    cases v with
    | null => cases h; exact .null name
    | bool b =>
        cases b with
        | false => cases h
        | true => cases h; exact .flag name
    | text s =>
        by_cases hs : s = ""
        · subst hs
          cases h
          exact .empty name
        · simp only [ofField, if_neg hs, Option.some.injEq] at h
          exact h ▸ .text name hs
    | number n => cases h; exact .number name n
    | array items => cases h; exact .array name items
    | object fields => cases h; exact .object name fields
  · intro h
    cases h with
    | text _ hs => simp [ofField, hs]
    | _ => rfl

theorem mem_ofObject_iff {fields : JsonObject} {d : String} :
    d ∈ ofObject fields ↔ ∃ e ∈ fields, Stands e d := by
  simp only [ofObject, List.mem_mergeSort, List.mem_filterMap, ofField_eq_some_iff]

/-- A value that declares defines has an entry. -/
inductive Holds : Json → String → Prop
  | item {items : List Json} {d : String} (h : .text d ∈ items) : Holds (.array items) d
  | field {fields : List (String × Json)} {e : String × Json} {d : String} (h : e ∈ fields)
      (hd : Stands e d) : Holds (.object fields) d

/-- Values that declare the same entries; where there is no value there are none. -/
def SameEntries (v? v'? : Option Json) : Prop :=
  ∀ d, (∃ v, v? = some v ∧ Holds v d) ↔ ∃ v, v'? = some v ∧ Holds v d

/-- Lists of the same texts, in any order and number. -/
theorem sameEntries_of_texts {items items' : List Json}
    (h : ∀ d, .text d ∈ items ↔ .text d ∈ items') :
    SameEntries (some (.array items)) (some (.array items')) := by
  intro d
  simp only [Option.some.injEq, exists_eq_left']
  constructor
  · rintro ⟨hd⟩
    exact .item ((h d).1 hd)
  · rintro ⟨hd⟩
    exact .item ((h d).2 hd)

/-- A list of texts and an object whose fields stand for them. -/
theorem sameEntries_of_fields {items : List Json} {fields : List (String × Json)}
    (h : ∀ d, .text d ∈ items ↔ ∃ e ∈ fields, Stands e d) :
    SameEntries (some (.array items)) (some (.object fields)) := by
  intro d
  simp only [Option.some.injEq, exists_eq_left']
  constructor
  · rintro ⟨hd⟩
    obtain ⟨e, he, hd⟩ := (h d).1 hd
    exact .field he hd
  · intro hd
    cases hd with
    | field he hd => exact .item ((h d).2 ⟨_, he, hd⟩)

/-- The fields of an object in another order. -/
theorem sameEntries_of_perm {fields fields' : List (String × Json)} (h : fields.Perm fields') :
    SameEntries (some (.object fields)) (some (.object fields')) := by
  intro d
  simp only [Option.some.injEq, exists_eq_left']
  constructor
  · intro hd
    cases hd with
    | field he hd => exact .field (h.mem_iff.1 he) hd
  · intro hd
    cases hd with
    | field he hd => exact .field (h.mem_iff.2 he) hd

/-- Lists of the same entries make one set. -/
theorem toSet_congr {ds ds' : List String} (h : ∀ d, d ∈ ds ↔ d ∈ ds') : toSet ds = toSet ds' := by
  refine (pairwise_toSet ds).eq_of_mem_iff (pairwise_toSet ds') fun d => ?_
  rw [mem_toSet, mem_toSet, h]

end Define

/-! ### Declarations -/

namespace ShaderReference

open Define (Stands Holds SameEntries)

/-- A declaration of a shader has an entry. -/
def HasDefine (v : Json) (d : String) : Prop := ∃ x, v.field? "defines" = some x ∧ Holds x d

theorem mem_declaredDefines_iff {v : Json} {d : String} :
    d ∈ declaredDefines v ↔ HasDefine v d := by
  have hfield : HasDefine v d ↔ ∃ x, v.field? "defines" = some x ∧ Holds x d := Iff.rfl
  rw [hfield, declaredDefines]
  cases v.field? "defines" with
  | none => simp
  | some x =>
      simp only [Option.some.injEq, exists_eq_left']
      constructor
      · intro h
        cases x with
        | array items =>
            obtain ⟨y, hy, htext⟩ := List.mem_filterMap.1 h
            cases y with
            | text s => cases htext; exact .item hy
            | _ => cases htext
        | object fields =>
            obtain ⟨e, he, hd⟩ := Define.mem_ofObject_iff.1 h
            exact .field he hd
        | _ => cases h
      · rintro (⟨hd⟩ | ⟨he, hd⟩)
        · exact List.mem_filterMap.2 ⟨_, hd, rfl⟩
        · exact Define.mem_ofObject_iff.2 ⟨_, he, hd⟩

/-- A declaration as it is, or one in place that has the same entries, written in another way. -/
inductive Redefined : Json → Json → Prop
  | same (v : Json) : Redefined v v
  | inPlace {v v' : Json} (h : v.text? = none) (h' : v'.text? = none)
      (other : AgreeBut "defines" v v')
      (defines : SameEntries (v.field? "defines") (v'.field? "defines")) : Redefined v v'

/-- The shaders of a pass or the items of a library, each as it is or with its defines written in
another way. -/
inductive EachRedefined : Json → Json → Prop
  | keyed {v v' : Json} (h : Fieldwise (fun _ => Redefined) v v') : EachRedefined v v'
  | listed {v v' : Json} (h : Itemwise Redefined v v') : EachRedefined v v'

theorem Redefined.textField?_eq {v v' : Json} (h : Redefined v v') {key : String}
    (hkey : key ≠ "defines") : v'.textField? key = v.textField? key := by
  cases h with
  | same => rfl
  | inPlace _ _ hother => exact Json.textField?_congr (hother key hkey)

end ShaderReference

/-! ### Documents -/

/-- Documents with the same defines, and with libraries whose declarations have the same entries,
written in another way. -/
structure Document.Redefined (d d' : Document) : Prop where
  libraries : Table.Related (fun _ => ShaderReference.EachRedefined) (d.shaders?.getD [])
    (d'.shaders?.getD [])
  defines   : Define.SameEntries (d.defines?.map .object) (d'.defines?.map .object)

/-- Contexts of such documents. -/
structure ReadContext.Redefined (ctx ctx' : ReadContext) : Prop where
  source        : ctx'.source = ctx.source
  shaderRoot    : ctx'.shaderRoot = ctx.shaderRoot
  library       : Table.Related (fun _ => ShaderReference.EachRedefined) ctx.library ctx'.library
  globalDefines : ∀ e, e ∈ ctx.globalDefines ↔ e ∈ ctx'.globalDefines

namespace Document

/-- A document has an entry for all shaders. -/
def HasDefine (d : Document) (e : String) : Prop :=
  ∃ v, d.defines?.map Json.object = some v ∧ Define.Holds v e

theorem mem_globalDefines_iff {d : Document} {e : String} (src : Source) (root : String) :
    e ∈ (ReadContext.ofDocument src root d).globalDefines ↔ d.HasDefine e := by
  unfold HasDefine ReadContext.ofDocument
  cases d.defines? with
  | none => simp
  | some fields =>
      simp only [Option.map_some, Option.getD_some, Option.some.injEq, exists_eq_left',
        Define.mem_ofObject_iff]
      constructor
      · rintro ⟨f, hf, he⟩
        exact .field hf he
      · intro he
        cases he with
        | field hf he => exact ⟨_, hf, he⟩

theorem Redefined.context {d d' : Document} (h : Redefined d d') (src : Source) (root : String) :
    (ReadContext.ofDocument src root d).Redefined (.ofDocument src root d') where
  source := rfl
  shaderRoot := rfl
  library := h.libraries
  globalDefines e := by
    rw [mem_globalDefines_iff, mem_globalDefines_iff]
    exact h.defines e

end Document

/-! ### Shaders -/

namespace ShaderReference

variable {ctx ctx' : ReadContext} {material : String} {stage : Stage} {v v' : Json}

/-- A declaration is read with its entries and those of the context, however they are written. -/
theorem ofDeclaration_redefined (hc : ctx.Redefined ctx') (id? : Option String)
    (h : Redefined v v') :
    ofDeclaration ctx' material stage id? v' = ofDeclaration ctx material stage id? v := by
  have hother : ∀ key, key ≠ "defines" → v'.field? key = v.field? key := by
    cases h with
    | same => exact fun _ _ => rfl
    | inPlace _ _ hother => exact hother
  have hentries : ∀ d, d ∈ declaredDefines v ↔ d ∈ declaredDefines v' := by
    intro d
    cases h with
    | same => rfl
    | inPlace _ _ _ hdefines =>
        rw [mem_declaredDefines_iff, mem_declaredDefines_iff]
        exact hdefines d
  have hset : Define.toSet (declaredDefines v' ++ ctx'.globalDefines) =
      Define.toSet (declaredDefines v ++ ctx.globalDefines) := by
    refine Define.toSet_congr fun d => ?_
    rw [List.mem_append, List.mem_append, hentries, hc.globalDefines]
  have hfile := Json.requiredText_congr (hother "file" (by decide))
  have hprofile := Json.requiredText_congr (hother "profile" (by decide))
  simp only [ofDeclaration, hfile, hprofile, hother "entry" (by decide),
    hother "entryPoint" (by decide), hset, hc.source, hc.shaderRoot]

/-! ### Items of a library -/

theorem find?_redefined {items items' : List Json} (h : List.Forall₂ Redefined items items')
    (id : String) :
    Option.Rel Redefined (items.find? fun v => v.textField? "id" = some id)
      (items'.find? fun v => v.textField? "id" = some id) := by
  induction h with
  | nil => exact .none
  | @cons v v' vs vs' hv _ ih =>
      have hname : v'.textField? "id" = v.textField? "id" := hv.textField?_eq (by decide)
      by_cases hid : v.textField? "id" = some id
      · simpa [hname, hid] using Option.Rel.some hv
      · simpa [hname, hid] using ih

/-- The item of an id is the same, but for how its defines are written. -/
theorem libraryItem?_redefined (h : EachRedefined v v') (id : String) :
    Option.Rel Redefined (libraryItem? id v) (libraryItem? id v') := by
  have hsame : Option.Rel Redefined (libraryItem? id v) (libraryItem? id v) :=
    Result.rel_refl .same (libraryItem? id v)
  cases h with
  | keyed h =>
      cases h with
      | same => exact hsame
      | object h => exact h.value? id
  | listed h =>
      cases h with
      | same => exact hsame
      | array h => exact find?_redefined h id

/-! ### Declarations in a pass -/

theorem read_redefined (hc : ctx.Redefined ctx') (written : String) (h : Redefined v v') :
    read ctx' material stage written v' = read ctx material stage written v := by
  cases h with
  | inPlace htext htext' hother hdefines =>
      have hid := Json.textField?_congr (hother "id" (by decide))
      rw [read_of_inPlace htext, read_of_inPlace htext', hid]
      exact ofDeclaration_redefined hc _ (.inPlace htext htext' hother hdefines)
  | same =>
      cases htext : v.text? with
      | none =>
          rw [read_of_inPlace htext, read_of_inPlace htext]
          exact ofDeclaration_redefined hc _ (.same v)
      | some id =>
          obtain rfl := Json.eq_text htext
          exact read_text_congr (rel_declaration? hc.library libraryItem?_redefined stage written id)
            fun h => ofDeclaration_redefined hc (some id) h

/-- The shaders of a pass are declared under the same stages. -/
theorem declarations_redefined (h : EachRedefined v v') (material : String) :
    Result.Rel (Table.Related fun _ => Redefined) (declarations material v)
      (declarations material v') := by
  have hrefl : ∀ ds : List (String × Json), Table.Related (fun _ => Redefined) ds ds :=
    .refl fun _ => .same
  cases h with
  | keyed h =>
      cases h with
      | same => exact .refl hrefl _
      | object h => exact .ok h
  | listed h =>
      cases h with
      | same => exact .refl hrefl _
      | array h =>
          refine Result.Rel.mapM (h.imp fun v v' hv => ?_)
          rw [Json.requiredText, Json.requiredText, hv.textField?_eq (by decide)]
          cases v.textField? "stage" with
          | none => exact .error _
          | some written => exact .ok ⟨rfl, hv⟩

theorem readAlike_redefined (hc : ctx.Redefined ctx') : ReadAlike ctx ctx' EachRedefined where
  refl v := .keyed (.same v)
  read {v v'} h material pass := by
    have hds := declarations_redefined h material
    rw [readAll, readAll]
    generalize declarations material v = x, declarations material v' = y at hds ⊢
    cases hds with
    | error e => rfl
    | ok hds => exact readEach_related (fun hv _ written => read_redefined hc written hv) hds []

/-! ### What is read -/

/-- What stands for a shader in a pass leads to its declaration: it is that itself, or the id of one
in a library. -/
inductive LeadsTo (ctx : ReadContext) (stage : Stage) (written : String) : Json → Json → Prop
  | inPlace {v : Json} (h : v.text? = none) : LeadsTo ctx stage written v v
  | named {id : String} {x : Json} (h : declaration? ctx stage written id = some x) :
      LeadsTo ctx stage written (.text id) x

theorem exists_leadsTo {written : String} {s : ShaderReference}
    (h : read ctx material stage written v = .ok s) :
    ∃ x id?, LeadsTo ctx stage written v x ∧ ofDeclaration ctx material stage id? x = .ok s := by
  cases htext : v.text? with
  | none =>
      rw [read_of_inPlace htext] at h
      exact ⟨v, _, .inPlace htext, h⟩
  | some id =>
      obtain rfl := Json.eq_text htext
      simp only [read] at h
      split at h
      · next x hx => exact ⟨x, some id, .named hx, h⟩
      · cases h

/-- The defines of a shader that was read are the entries of its declaration and of the document,
in strict order. -/
theorem mem_defines_iff {src : Source} {root : String} {d : Document} {written : String}
    {s : ShaderReference} (h : read (.ofDocument src root d) material stage written v = .ok s) :
    s.defines.Pairwise (· < ·) ∧ ∃ x, LeadsTo (.ofDocument src root d) stage written v x ∧
      ∀ e, e ∈ s.defines ↔ HasDefine x e ∨ d.HasDefine e := by
  obtain ⟨x, id?, hx, hs⟩ := exists_leadsTo h
  obtain ⟨-, hdefines, -⟩ := parts_of_ofDeclaration hs
  rw [hdefines]
  refine ⟨Define.pairwise_toSet _, x, hx, fun e => ?_⟩
  rw [Define.mem_toSet, List.mem_append, mem_declaredDefines_iff, Document.mem_globalDefines_iff]

/-- In documents with the same defines and libraries, declarations with the same entries are read
alike, and so are materials, which then have the same keys.  What is read has each entry of its
declaration and of the document once, in order. -/
theorem read_of_sameEntries (src : Source) (root : String) {d d' : Document}
    (hd : d.Redefined d') :
    (∀ material stage written v v', Redefined v v' →
      read (.ofDocument src root d') material stage written v' =
        read (.ofDocument src root d) material stage written v) ∧
    (∀ material stage written v s, read (.ofDocument src root d) material stage written v = .ok s →
      s.defines.Pairwise (· < ·) ∧ ∃ x, LeadsTo (.ofDocument src root d) stage written v x ∧
        ∀ e, e ∈ s.defines ↔ HasDefine x e ∨ d.HasDefine e) ∧
    ∀ v v', Fieldwise (Material.Rewritten EachRedefined) v v' →
      Material.read (.ofDocument src root d') v' = Material.read (.ofDocument src root d) v ∧
      ∀ pass renderPass,
        (Material.read (.ofDocument src root d') v').map
            (PipelineHash.ofRequest · pass renderPass) =
          (Material.read (.ofDocument src root d) v).map
            (PipelineHash.ofRequest · pass renderPass) := by
  have hc := hd.context src root
  refine ⟨fun material stage written v v' h => read_redefined hc written h,
    fun material stage written v s h => mem_defines_iff h, fun v v' h => ?_⟩
  have hsame := Material.read_congr (readAlike_redefined hc) h
  exact ⟨hsame, fun pass renderPass => by rw [hsame]⟩

/-! ### A list and an object -/

namespace ThreeWays

def source : Source := (({} : MemorySource).insertText "lit.wgsl" "").toSource

/-- A document with defines for all shaders. -/
def document (defines : JsonObject) : Document where
  root := [("defines", .object defines)]

def written : JsonObject := [("FOG", .bool true), ("SHADOWS", .bool true)]

/-- A vertex shader with defines. -/
def shader (defines : Json) : Json :=
  .object [("file", .text "lit.wgsl"), ("profile", .text "vs_6_0"), ("defines", defines)]

def json (defines : Json) : Json :=
  .object [("id", .text "m"), ("shaders", .object [("vertex", shader defines)])]

def listed : Json := .array [.text "SHADOWS", .text "LIGHTS=4"]

def repeated : Json := .array [.text "LIGHTS=4", .text "SHADOWS", .text "LIGHTS=4"]

def keyed : JsonObject := [("DEBUG", .bool false), ("LIGHTS", .text "4"), ("SHADOWS", .null)]

theorem document_reversed : (document written).Redefined (document written.reverse) where
  libraries := .nil
  defines := Define.sameEntries_of_perm (List.reverse_perm written).symm

theorem redefined {defines defines' : Json}
    (h : Define.SameEntries (some defines) (some defines')) :
    Redefined (shader defines) (shader defines') := by
  refine .inPlace rfl rfl (fun key hkey => ?_) h
  simp [shader, Json.field?, Table.value?, Ne.symm hkey]

theorem listed_repeated : Define.SameEntries (some listed) (some repeated) := by
  refine Define.sameEntries_of_texts fun d => ?_
  simp only [List.mem_cons, Json.text.injEq, List.not_mem_nil, or_false]
  tauto

theorem listed_keyed : Define.SameEntries (some listed) (some (.object keyed)) := by
  have hstand : keyed.filterMap Define.ofField = ["LIGHTS=4", "SHADOWS"] := by decide +kernel
  refine Define.sameEntries_of_fields fun d => ?_
  simp only [← Define.ofField_eq_some_iff, ← List.mem_filterMap, hstand, List.mem_cons,
    Json.text.injEq, List.not_mem_nil, or_false]
  exact or_comm

theorem redefined_json :
    Fieldwise (Material.Rewritten EachRedefined) (json listed) (json (.object keyed)) := by
  have hshaders : EachRedefined (.object [("vertex", shader listed)])
      (.object [("vertex", shader (.object keyed))]) :=
    .keyed (.object (.cons ⟨rfl, redefined listed_keyed⟩ .nil))
  exact .object (.cons ⟨rfl, .other "id" _⟩ (.cons ⟨rfl, .shaders hshaders⟩ .nil))

theorem context_eq : ReadContext.ofDocument source "." (document written) =
    { source, shaderRoot := ".", globalDefines := ["FOG", "SHADOWS"] } := by
  have hsorted : Define.ofObject written = ["FOG", "SHADOWS"] :=
    List.mergeSort_of_pairwise (by decide +kernel)
  exact congrArg (ReadContext.mk source "." []) hsorted

theorem exists_read : ∃ s,
    read (.ofDocument source "." (document written)) "m" .vertex "vertex" (shader listed) = .ok s ∧
    s.defines = ["FOG", "LIGHTS=4", "SHADOWS"] := by
  rw [context_eq]
  exact Result.map_eq_ok.1 (by decide +kernel)

/-- The shader is read from the object as from the list, and from the list with a repetition. -/
theorem all_alike : ∃ s,
    read (.ofDocument source "." (document written)) "m" .vertex "vertex" (shader listed) = .ok s ∧
    s.defines = ["FOG", "LIGHTS=4", "SHADOWS"] ∧
    read (.ofDocument source "." (document written.reverse)) "m" .vertex "vertex"
      (shader repeated) = .ok s ∧
    read (.ofDocument source "." (document written.reverse)) "m" .vertex "vertex"
      (shader (.object keyed)) = .ok s ∧
    Material.read (.ofDocument source "." (document written.reverse)) (json (.object keyed)) =
      Material.read (.ofDocument source "." (document written)) (json listed) := by
  obtain ⟨hread, -, hmaterial⟩ := read_of_sameEntries source "." document_reversed
  obtain ⟨s, hs, hdefines⟩ := exists_read
  refine ⟨s, hs, hdefines, ?_, ?_, ?_⟩
  · exact (hread _ _ _ _ _ (redefined listed_repeated)).trans hs
  · exact (hread _ _ _ _ _ (redefined listed_keyed)).trans hs
  · exact (hmaterial _ _ redefined_json).1

end ThreeWays

end ShaderReference

end RenderMaterials
