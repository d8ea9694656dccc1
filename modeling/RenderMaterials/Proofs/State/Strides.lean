import RenderMaterials.Proofs.State.Packing

/-!
# Strides of inherited vertex formats

A vertex format has the stride that the nearest declaration of its line states, counted from its own
up, as long as no declaration between brings attributes.  New attributes bring their packed size
along, and then the stride that was stated above them is lost.

* `VertexFormat.stated_of_override`: a stride that is stated is the stride.
* `VertexFormat.unstated_of_override`: a declaration that states none keeps the block or packs it.
* `VertexFormat.unstated_of_foldlM`: and so does a line of them.
* `VertexFormat.stride_kept_iff`: when a stated stride is that of the block at the end of the line.
-/

namespace RenderMaterials

namespace VertexFormat

open StateBlock (Lineage)

variable {s t : VertexFormat} {json : JsonObject} {line earlier later : List JsonObject} {v : Json}

/-! ### One declaration -/

theorem stated_of_override (h : s.override json = .ok t) (hv : json.value? "stride" = some v) :
    v.natural? = some t.stride := by
  cases he : json.value? "elements" with
  | none =>
      obtain ⟨-, hstride⟩ := (override_of_absent he).1 h
      rw [hv] at hstride
      exact hstride.1
  | some w =>
      obtain ⟨vs, rfl⟩ := exists_array_of_override h he
      obtain ⟨-, hstride⟩ := (override_of_array he).1 h
      rw [hv] at hstride
      exact hstride.1

/-- A declaration that states no stride says nothing, or brings attributes with their size. -/
theorem unstated_of_override (h : s.override json = .ok t) (hs : json.has "stride" = false) :
    json.has "elements" = false ∧ t = s ∨
      json.has "elements" = true ∧ t.stride = packedSize t.elements := by
  cases he : json.value? "elements" with
  | none =>
      obtain ⟨helements, hstride⟩ := (override_of_absent he).1 h
      refine .inl ⟨by rw [Table.has, he]; rfl, ?_⟩
      cases s
      cases t
      exact congr (congrArg mk (hstride.of_absent hs)) helements
  | some w =>
      obtain ⟨vs, rfl⟩ := exists_array_of_override h he
      obtain ⟨-, hstride⟩ := (override_of_array he).1 h
      exact .inr ⟨by rw [Table.has, he]; rfl, hstride.of_absent hs⟩

/-! ### Lines of declarations -/

/-- Declarations that state no stride say nothing, or bring attributes: the last that do so also
bring the stride. -/
theorem unstated_of_foldlM (h : line.foldlM override s = .ok t)
    (hs : ∀ json ∈ line, json.has "stride" = false) :
    (∀ json ∈ line, json.has "elements" = false) ∧ t = s ∨
      (∃ json ∈ line, json.has "elements" = true) ∧ t.stride = packedSize t.elements := by
  induction line generalizing s with
  | nil =>
      obtain rfl := Except.ok.inj h
      exact .inl ⟨by simp, rfl⟩
  | cons json line ih =>
      rw [List.foldlM_cons] at h
      obtain ⟨u, hu, h⟩ := Result.bind_eq_ok.1 h
      rw [List.forall_mem_cons] at hs
      rcases ih h hs.2 with ⟨hnone, rfl⟩ | ⟨hsome, hpacked⟩
      · rcases unstated_of_override hu hs.1 with ⟨hj, rfl⟩ | ⟨hj, hpacked⟩
        · exact .inl ⟨List.forall_mem_cons.2 ⟨hj, hnone⟩, rfl⟩
        · exact .inr ⟨⟨json, by simp, hj⟩, hpacked⟩
      · exact .inr ⟨(List.exists_mem_cons_iff _ _ _).2 (.inr hsome), hpacked⟩

/-- A stride that is stated and then no more holds to the end of the line exactly when no attributes
follow, or the last that do happen to end there. -/
theorem stated_of_foldlM (h : (earlier ++ json :: later).foldlM override s = .ok t)
    (hv : json.value? "stride" = some v) (hs : ∀ below ∈ later, below.has "stride" = false) :
    ∃ n, v.natural? = some n ∧ (t.stride = n ↔
      (∀ below ∈ later, below.has "elements" = false) ∨ packedSize t.elements = n) := by
  rw [List.foldlM_append, Result.bind_eq_ok] at h
  obtain ⟨r, -, h⟩ := h
  rw [List.foldlM_cons, Result.bind_eq_ok] at h
  obtain ⟨u, hu, h⟩ := h
  refine ⟨u.stride, stated_of_override hu hv, ?_⟩
  rcases unstated_of_foldlM h hs with ⟨hnone, rfl⟩ | ⟨⟨below, hb, he⟩, hpacked⟩
  · exact iff_of_true rfl (.inl hnone)
  · rw [hpacked]
    refine ⟨.inr, fun hor => hor.resolve_left fun hnone => ?_⟩
    rw [hnone below hb] at he
    cases he

/-! ### Formats of a document -/

/-- A document has the vertex formats that its ids stand for. -/
theorem value?_of_resolves {states : Option JsonObject} {r : StateRegistry} {id : String}
    {ds : List StateDeclaration} (hr : StateRegistry.read states = .ok r)
    (hds : StateDeclaration.list (states.getD []) StateCategory.vertexFormat.key = .ok ds)
    (ht : StateBlock.Resolves (Table.ofPairs ds) id t) : r.vertexFormat.value? id = some t := by
  have hread : StateBlock.readCategory VertexFormat (states.getD []) .vertexFormat =
      .ok r.vertexFormat := StateRegistry.read_eq_ok.1 hr .vertexFormat
  rw [StateBlock.readCategory, hds, Result.ok_bind] at hread
  exact ((StateBlock.resolveAll_eq_ok hread).2.2 id t).2 ht

/-- A line makes a vertex format that has the stride last stated in it exactly when no declaration
behind brings attributes, or the last attributes happen to end there; where none is stated, it has
the packed size of its attributes.  A document with these declarations has that format. -/
theorem stride_kept_iff {declared : Table String JsonObject} {id : String}
    (hline : Lineage declared id line) (h : line.foldlM override {} = .ok t) :
    (∀ earlier json later v, line = earlier ++ json :: later → json.value? "stride" = some v →
      (∀ below ∈ later, below.has "stride" = false) →
      ∃ n, v.natural? = some n ∧ (t.stride = n ↔
        (∀ below ∈ later, below.has "elements" = false) ∨ packedSize t.elements = n)) ∧
    ((∀ json ∈ line, json.has "stride" = false) → t.stride = packedSize t.elements) ∧
    ∀ (states : Option JsonObject) r ds, StateRegistry.read states = .ok r →
      StateDeclaration.list (states.getD []) StateCategory.vertexFormat.key = .ok ds →
      Table.ofPairs ds = declared → r.vertexFormat.value? id = some t := by
  refine ⟨?_, fun hs => ?_, ?_⟩
  · rintro earlier json later v rfl hv hs
    exact stated_of_foldlM h hv hs
  · rcases unstated_of_foldlM h hs with ⟨-, rfl⟩ | ⟨-, hpacked⟩
    · rfl
    · exact hpacked
  · rintro states r ds hr hds rfl
    exact value?_of_resolves hr hds ⟨line, hline, h⟩

/-! ### A base with a stride -/

namespace WideBase

def wide : JsonObject := [("stride", .number (.integer 64))]

def plain : JsonObject := [("base", .text "wide")]

def narrow : JsonObject :=
  [("base", .text "wide"), ("elements", .array
    [.object [("semantic", .text "POSITION"), ("format", .text "R32G32B32_FLOAT")]])]

def declarations : List StateDeclaration := [("wide", wide), ("plain", plain), ("narrow", narrow)]

def states : JsonObject :=
  [("vertexFormats", .object (declarations.map fun d => (d.1, .object d.2)))]

def narrowFormat : VertexFormat where
  stride := 12
  elements :=
    [{ semantic := "POSITION", semanticIndex := 0, format := .r32g32b32Float, offset := 0,
       inputSlot := 0 }]

def registry : StateRegistry where
  vertexFormat :=
    [("wide", { stride := 64 }), ("plain", { stride := 64 }), ("narrow", narrowFormat)]

theorem read_states : StateRegistry.read (some states) = .ok registry := by decide +kernel

theorem list_states :
    StateDeclaration.list states StateCategory.vertexFormat.key = .ok declarations := rfl

theorem lineage_narrow : Lineage (Table.ofPairs declarations) "narrow" [wide, narrow] :=
  .derived rfl rfl (.root rfl rfl)

/-- Attributes of its own take the stride of its base from a format. -/
theorem stated_stride_dropped : ¬ ∀ (states : JsonObject) r id (t : VertexFormat) ds line,
    StateRegistry.read (some states) = .ok r → r.vertexFormat.value? id = some t →
    StateDeclaration.list states StateCategory.vertexFormat.key = .ok ds →
    Lineage (Table.ofPairs ds) id line →
    ∀ earlier json later v, line = earlier ++ json :: later → json.value? "stride" = some v →
      (∀ below ∈ later, below.has "stride" = false) → v.natural? = some t.stride := by
  intro hall
  have hsixtyFour := hall states registry "narrow" narrowFormat declarations [wide, narrow]
    read_states rfl list_states lineage_narrow [] wide [narrow] (.number (.integer 64)) rfl rfl
    (List.forall_mem_singleton.2 rfl)
  cases hsixtyFour

/-- A format that brings no attributes has the stride of its base. -/
theorem plain_keeps_stride :
    Lineage (Table.ofPairs declarations) "plain" ([] ++ wide :: [plain]) ∧
    ([] ++ wide :: [plain]).foldlM override {} = .ok { stride := 64 } ∧
    (∀ below ∈ [plain], below.has "stride" = false) ∧
    (∀ below ∈ [plain], below.has "elements" = false) ∧
    (Json.number (.integer 64)).natural? = some ({ stride := 64 } : VertexFormat).stride ∧
    registry.vertexFormat.value? "plain" = some { stride := 64 } := by
  have hline : Lineage (Table.ofPairs declarations) "plain" ([] ++ wide :: [plain]) :=
    .derived rfl rfl (.root rfl rfl)
  have hplain : ([] ++ wide :: [plain]).foldlM override {} = .ok { stride := 64 } := rfl
  have hstride : ∀ below ∈ [plain], below.has "stride" = false := List.forall_mem_singleton.2 rfl
  have hnone : ∀ below ∈ [plain], below.has "elements" = false := List.forall_mem_singleton.2 rfl
  obtain ⟨hkept, -, hdocument⟩ := stride_kept_iff hline hplain
  obtain ⟨n, hn, hiff⟩ := hkept [] wide [plain] _ rfl rfl hstride
  rw [← hiff.2 (.inl hnone)] at hn
  exact ⟨hline, hplain, hstride, hnone, hn, hdocument _ _ _ read_states list_states rfl⟩

end WideBase

end VertexFormat

end RenderMaterials
