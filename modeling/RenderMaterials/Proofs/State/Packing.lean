import RenderMaterials.Proofs.State.Fields
import Mathlib.Algebra.GroupWithZero.Nat

/-!
# Packing of vertex attributes

The attributes of a vertex format are read in order.  An entry may say where its attribute starts,
also before the end of the one in front; otherwise the attribute starts exactly there.

* `VertexElement.Describes`: what an entry says of its attribute.  `read_eq_ok`: an entry is read
  exactly when it says enough.
* `VertexElement.Placed`: a list of entries with the attributes that they are read as.
* `VertexElement.Fits`: an attribute ends within 32 bits, so that nothing of its end is cut off.
* `VertexElement.Adjoined`: attributes that follow one another without gaps.  Their offsets are the
  sums of the sizes in front of them, and together they cover each byte once.
* `VertexFormat.override_of_array`: what a declaration with attributes makes of a vertex format.
* `VertexFormat.packed_of_override`: so its stride is the furthest end of an attribute unless it
  says otherwise, and attributes that say nothing of their offsets tile it.
-/

namespace RenderMaterials

/-- A value is a natural of 32 bits; an absent one is a default. -/
def Json.WordOr (default : Nat) : Option Json → Nat → Prop
  | none,   n => n = default
  | some v, n => v.natural? = some n ∧ n < word32Bound

theorem Json.WordOr.of_absent {json : JsonObject} {key : String} {default n : Nat}
    (h : WordOr default (json.value? key) n) (hk : json.has key = false) : n = default := by
  rw [Table.has, Option.isSome_eq_false_iff, Option.isNone_iff_eq_none] at hk
  rwa [hk] at h

theorem Json.WordOr.lt {v? : Option Json} {default n : Nat} (h : WordOr default v? n)
    (hd : default < word32Bound) : n < word32Bound := by
  cases v? with
  | none => exact Nat.lt_of_le_of_lt (Nat.le_of_eq h) hd
  | some v => exact h.2

theorem Overrides.natural_eq_ok {o : Overrides} {key : String} {old n : Nat} :
    o.natural key word32Bound old = .ok n ↔ Json.WordOr old (o.json.value? key) n := by
  rw [natural, field_eq_ok]
  cases o.json.value? key with
  | none => rfl
  | some v => simp [Json.WordOr]

namespace VertexElement

variable {next i n : Nat} {v : Json} {vs : List Json} {e : VertexElement} {es : List VertexElement}

/-! ### One attribute -/

/-- An attribute is what an entry says, and starts at `next` unless the entry says where. -/
structure Describes (next : Nat) (v : Json) (e : VertexElement) : Prop where
  semantic      : v.textField? "semantic" = some e.semantic
  format        : (v.field? "format").bind TexelFormat.read? = some e.format
  offset        : Json.WordOr next (v.field? "offset") e.offset
  semanticIndex : Json.WordOr 0 (v.field? "semanticIndex") e.semanticIndex
  inputSlot     : Json.WordOr 0 (v.field? "inputSlot") e.inputSlot

theorem read_eq_ok : read next v = .ok e ↔ Describes next v e := by
  cases v with
  | null | bool | number | text | array =>
      exact iff_of_false (fun h => by cases h) fun h => by cases h.semantic
  | object json =>
      simp only [read, Json.object?]
      cases hs : (Json.object json).textField? "semantic" with
      | none => exact iff_of_false (fun h => by cases h) fun h => by cases hs.symm.trans h.semantic
      | some semantic =>
          cases hf : (Json.object json).field? "format" with
          | none => exact iff_of_false (fun h => by cases h) fun h => by simpa [hf] using h.format
          | some format =>
              simp only [Result.bind_eq_ok, TexelFormat.read_eq_ok, Overrides.natural_eq_ok,
                Result.pure_eq, Except.ok.injEq]
              constructor
              · rintro ⟨f, hformat, offset, hoffset, index, hindex, slot, hslot, rfl⟩
                exact ⟨hs, by rw [hf]; exact hformat, hoffset, hindex, hslot⟩
              · rintro ⟨hsemantic, hformat, hoffset, hindex, hslot⟩
                cases hs.symm.trans hsemantic
                rw [hf] at hformat
                exact ⟨_, hformat, _, hoffset, _, hindex, _, hslot, rfl⟩

/-! ### Attributes in a row -/

/-- Attributes that entries are read as.  One whose entry does not say where starts at the end of
the one in front of it, and the first one at `next`. -/
inductive Placed : Nat → List Json → List VertexElement → Prop
  | nil {next : Nat} : Placed next [] []
  | cons {next : Nat} {v : Json} {vs : List Json} {e : VertexElement} {es : List VertexElement} :
      Describes next v e → Placed e.finish vs es → Placed next (v :: vs) (e :: es)

theorem readList_eq_ok : readList next vs = .ok es ↔ Placed next vs es := by
  induction vs generalizing next es with
  | nil =>
      constructor
      · intro h
        obtain rfl := Except.ok.inj h
        exact .nil
      · intro h
        cases h
        rfl
  | cons v vs ih =>
      simp only [readList, Result.bind_eq_ok, read_eq_ok, ih, Result.pure_eq, Except.ok.injEq]
      constructor
      · rintro ⟨e, he, es, hes, rfl⟩
        exact .cons he hes
      · intro h
        cases h with
        | cons he hes => exact ⟨_, he, _, hes, rfl⟩

/-- Where the attribute in a position starts unless its entry says where. -/
def startOf (next : Nat) (es : List VertexElement) : Nat → Nat
  | 0     => next
  | i + 1 => (es[i]?.map finish).getD next

theorem startOf_cons_succ (next : Nat) (e : VertexElement) (hi : i ≤ es.length) :
    startOf next (e :: es) (i + 1) = startOf e.finish es i := by
  cases i with
  | zero => rfl
  | succ i => simp [startOf, List.getElem?_eq_getElem (Nat.lt_of_succ_le hi)]

theorem Placed.length (h : Placed next vs es) : es.length = vs.length := by
  induction h with
  | nil => rfl
  | cons _ _ ih => rw [List.length_cons, List.length_cons, ih]

/-- Each attribute is what its entry says. -/
theorem Placed.describes (h : Placed next vs es) (hv : vs[i]? = some v) (he : es[i]? = some e) :
    Describes (startOf next es i) v e := by
  induction h generalizing i with
  | nil => simp at hv
  | cons hd _ ih =>
      cases i with
      | zero =>
          obtain rfl := Option.some.inj hv
          obtain rfl := Option.some.inj he
          exact hd
      | succ i =>
          rw [List.getElem?_cons_succ] at hv he
          have hi := (List.getElem?_eq_some_iff.1 he).1
          rw [startOf_cons_succ _ _ (Nat.le_of_lt hi)]
          exact ih hv he

/-! ### Ends -/

theorem finish_lt (e : VertexElement) : e.finish < word32Bound := addWord32_lt _ _

/-- An attribute ends within 32 bits. -/
def Fits (e : VertexElement) : Prop := e.offset + e.format.byteSize < word32Bound

instance (e : VertexElement) : Decidable e.Fits :=
  inferInstanceAs (Decidable (e.offset + e.format.byteSize < word32Bound))

theorem Fits.finish (h : e.Fits) : e.finish = e.offset + e.format.byteSize := addWord32_of_lt h

/-- No attribute ends behind `n`, and one ends there; without attributes it is zero. -/
structure Furthest (es : List VertexElement) (n : Nat) : Prop where
  le      : ∀ e ∈ es, e.finish ≤ n
  reached : es = [] ∧ n = 0 ∨ ∃ e ∈ es, e.finish = n

theorem furthest_packedSize (es : List VertexElement) :
    Furthest es (VertexFormat.packedSize es) := by
  rw [VertexFormat.packedSize, List.foldl_max, Nat.zero_max]
  cases hm : (es.map finish).max? with
  | none =>
      obtain rfl := List.map_eq_nil_iff.1 (List.max?_eq_none_iff.1 hm)
      exact ⟨by simp, .inl ⟨rfl, rfl⟩⟩
  | some m =>
      obtain ⟨hmem, hle⟩ := List.max?_eq_some_iff.1 hm
      exact ⟨fun e he => hle _ (List.mem_map_of_mem he), .inr (List.mem_map.1 hmem)⟩

theorem Furthest.lt (h : Furthest es n) : n < word32Bound := by
  rcases h.reached with ⟨-, rfl⟩ | ⟨e, -, rfl⟩
  · decide
  · exact e.finish_lt

/-! ### Attributes without gaps -/

/-- An attribute has a byte. -/
def Covers (e : VertexElement) (n : Nat) : Prop :=
  e.offset ≤ n ∧ n < e.offset + e.format.byteSize

/-- The bytes that attributes take. -/
def totalSize (es : List VertexElement) : Nat := (es.map (·.format.byteSize)).sum

/-- Each attribute starts where the one in front of it ends, and the first one at `next`. -/
def Adjoined : Nat → List VertexElement → Prop
  | _,    []      => True
  | next, e :: es => e.offset = next ∧ Adjoined (e.offset + e.format.byteSize) es

theorem Placed.adjoined (h : Placed next vs es) (hv : ∀ v ∈ vs, v.field? "offset" = none)
    (hfits : ∀ e ∈ es, e.Fits) : Adjoined next es := by
  induction h with
  | nil => trivial
  | cons hd _ ih =>
      rw [List.forall_mem_cons] at hv hfits
      have hoffset := hd.offset
      rw [hv.1] at hoffset
      have hrest := ih hv.2 hfits.2
      rw [hfits.1.finish] at hrest
      exact ⟨hoffset, hrest⟩

theorem totalSize_cons (e : VertexElement) (es : List VertexElement) :
    totalSize (e :: es) = e.format.byteSize + totalSize es := by
  rw [totalSize, List.map_cons, List.sum_cons, totalSize]

theorem packedSize_cons (e : VertexElement) (es : List VertexElement) :
    VertexFormat.packedSize (e :: es) = max e.finish (VertexFormat.packedSize es) := by
  rw [VertexFormat.packedSize, List.map_cons, List.foldl_cons, Nat.max_comm, List.foldl_assoc]
  rfl

namespace Adjoined

/-- The sizes in front of an attribute say where it starts. -/
theorem offset (h : Adjoined next es) (he : es[i]? = some e) :
    e.offset = next + totalSize (es.take i) := by
  induction es generalizing next i with
  | nil => simp at he
  | cons a es ih =>
      obtain ⟨rfl, h⟩ := h
      cases i with
      | zero =>
          obtain rfl := Option.some.inj he
          rfl
      | succ i =>
          rw [ih h he, List.take_succ_cons, totalSize_cons, Nat.add_assoc]

theorem covered_iff (h : Adjoined next es) :
    (∃ e ∈ es, e.Covers n) ↔ next ≤ n ∧ n < next + totalSize es := by
  induction es generalizing next with
  | nil =>
      refine iff_of_false (by simp) fun hn => ?_
      exact absurd hn.2 (Nat.not_lt.2 hn.1)
  | cons e es ih =>
      obtain ⟨rfl, h⟩ := h
      rw [List.exists_mem_cons_iff, ih h, totalSize_cons, Covers]
      omega

/-- No byte belongs to two attributes. -/
theorem disjoint (h : Adjoined next es) :
    es.Pairwise fun a b => ∀ n, ¬ (a.Covers n ∧ b.Covers n) := by
  induction es generalizing next with
  | nil => exact .nil
  | cons e es ih =>
      obtain ⟨-, h⟩ := h
      refine .cons (fun a ha n hn => ?_) (ih h)
      -- what is behind an attribute starts at its end
      have hle := (h.covered_iff.1 ⟨a, ha, hn.2⟩).1
      exact absurd hn.1.2 (Nat.not_lt.2 hle)

theorem packedSize (h : Adjoined next es) (hfits : ∀ e ∈ es, e.Fits) :
    max next (VertexFormat.packedSize es) = next + totalSize es := by
  induction es generalizing next with
  | nil => simp [VertexFormat.packedSize, totalSize]
  | cons e es ih =>
      obtain ⟨rfl, h⟩ := h
      rw [List.forall_mem_cons] at hfits
      have hle : e.offset ≤ e.offset + e.format.byteSize := Nat.le_add_right _ _
      rw [packedSize_cons, hfits.1.finish, ← Nat.max_assoc, Nat.max_eq_right hle, ih h hfits.2,
        totalSize_cons, Nat.add_assoc]

end Adjoined

end VertexElement

/-! ### Vertex formats -/

namespace VertexFormat

open VertexElement

variable {s t : VertexFormat} {json : JsonObject} {v : Json} {vs : List Json}

theorem override_of_absent (hv : json.value? "elements" = none) :
    s.override json = .ok t ↔
      t.elements = s.elements ∧ Json.WordOr s.stride (json.value? "stride") t.stride := by
  simp only [override, Overrides.array, Overrides.field, hv, Result.ok_bind, Result.pure_eq,
    Result.bind_eq_ok, Overrides.natural_eq_ok, Except.ok.injEq]
  constructor
  · rintro ⟨n, hn, rfl⟩
    exact ⟨rfl, hn⟩
  · rintro ⟨he, hn⟩
    exact ⟨_, hn, by rw [← he]⟩

/-- New attributes bring their furthest end along as the stride, unless a stride is stated. -/
theorem override_of_array (hv : json.value? "elements" = some (.array vs)) :
    s.override json = .ok t ↔ Placed 0 vs t.elements ∧
      Json.WordOr (packedSize t.elements) (json.value? "stride") t.stride := by
  simp only [override, Overrides.array, Overrides.field, hv, Json.array?, Option.map_some,
    Result.ok_bind, Result.pure_eq, Result.bind_eq_ok, readList_eq_ok, Overrides.natural_eq_ok,
    Except.ok.injEq]
  constructor
  · rintro ⟨es, hes, n, hn, rfl⟩
    exact ⟨hes, hn⟩
  · rintro ⟨hes, hn⟩
    exact ⟨_, hes, _, hn, rfl⟩

theorem exists_array_of_override (h : s.override json = .ok t)
    (hv : json.value? "elements" = some v) : ∃ vs, v = .array vs := by
  cases v with
  | array vs => exact ⟨vs, rfl⟩
  | null | bool | number | text | object =>
      simp [override, Overrides.array, Overrides.field, hv, Json.array?] at h

/-- Attributes are read one for each entry, in order; one without an offset starts at the end of
the one in front of it.  The stride fits a word and, unless stated, is the furthest of their ends.
When no end is cut off, these are the true ends; and then attributes without offsets start at the
sums of the sizes in front of them, share no byte, and leave none below the stride uncovered. -/
theorem packed_of_override (hv : json.value? "elements" = some (.array vs))
    (h : s.override json = .ok t) :
    (t.elements.length = vs.length ∧ ∀ i v e, vs[i]? = some v → t.elements[i]? = some e →
      Describes (startOf 0 t.elements i) v e) ∧
    t.stride < word32Bound ∧
    (json.has "stride" = false → Furthest t.elements t.stride) ∧
    ((∀ e ∈ t.elements, e.Fits) →
      (∀ e ∈ t.elements, e.finish = e.offset + e.format.byteSize) ∧
      ((∀ v ∈ vs, v.field? "offset" = none) →
        (∀ i e, t.elements[i]? = some e → e.offset = totalSize (t.elements.take i)) ∧
        (t.elements.Pairwise fun a b => ∀ n, ¬ (a.Covers n ∧ b.Covers n)) ∧
        (json.has "stride" = false → t.stride = totalSize t.elements ∧
          ∀ n, n < t.stride ↔ ∃ e ∈ t.elements, e.Covers n))) := by
  obtain ⟨hplaced, hstride⟩ := (override_of_array hv).1 h
  have hfurthest := furthest_packedSize t.elements
  refine ⟨⟨hplaced.length, fun i v e hv he => hplaced.describes hv he⟩, hstride.lt hfurthest.lt,
    fun habsent => ?_, fun hfits => ⟨fun e he => (hfits e he).finish, fun hnone => ?_⟩⟩
  · rwa [hstride.of_absent habsent]
  · have hadjoined := hplaced.adjoined hnone hfits
    have htotal : packedSize t.elements = totalSize t.elements := by
      simpa using hadjoined.packedSize hfits
    refine ⟨fun i e he => ?_, hadjoined.disjoint, fun habsent => ?_⟩
    · rw [hadjoined.offset he, Nat.zero_add]
    · rw [hstride.of_absent habsent, htotal]
      refine ⟨rfl, fun n => ?_⟩
      rw [hadjoined.covered_iff]
      omega

/-- An offset may go back, and the attribute behind it follows it there. -/
example : (readList 0 [
      .object [("semantic", .text "POSITION"), ("format", .text "R32G32B32_FLOAT")],
      .object [("semantic", .text "NORMAL"), ("format", .text "R32_FLOAT"),
        ("offset", .number (.integer 4))],
      .object [("semantic", .text "TEXCOORD"), ("format", .text "R32G32_FLOAT")]]).map
    (fun es => (es.map (·.offset), packedSize es)) = .ok ([0, 4, 8], 16) := rfl

/-- An end that does not fit is cut off, and with it the stride. -/
example : packedSize
    [{ semantic := "POSITION", semanticIndex := 0, format := .r32Float, offset := 4294967295,
       inputSlot := 0 }] = 3 := by decide

/-! ### Two attributes in a row -/

namespace TexturedVertex

def entries : List Json :=
  [.object [("semantic", .text "POSITION"), ("format", .text "R32G32B32_FLOAT")],
    .object [("semantic", .text "TEXCOORD"), ("format", .text "R32G32_FLOAT")]]

def declaration : JsonObject := [("elements", .array entries)]

def format : VertexFormat where
  stride := 20
  elements :=
    [{ semantic := "POSITION", semanticIndex := 0, format := .r32g32b32Float, offset := 0,
       inputSlot := 0 },
     { semantic := "TEXCOORD", semanticIndex := 0, format := .r32g32Float, offset := 12,
       inputSlot := 0 }]

/-- The two attributes tile the twenty bytes of a vertex. -/
theorem textured_tiled : declaration.value? "elements" = some (.array entries) ∧
    VertexFormat.override {} declaration = .ok format ∧ declaration.has "stride" = false ∧
    (∀ v ∈ entries, v.field? "offset" = none) ∧ format.stride = totalSize format.elements ∧
    (format.elements.Pairwise fun a b => ∀ n, ¬ (a.Covers n ∧ b.Covers n)) ∧
    ∀ n, n < 20 ↔ ∃ e ∈ format.elements, e.Covers n := by
  have hread : VertexFormat.override {} declaration = .ok format := rfl
  have hnone : ∀ v ∈ entries, v.field? "offset" = none := by
    intro v hv
    rcases List.mem_pair.1 hv with rfl | rfl
    · rfl
    · rfl
  have hfits : ∀ e ∈ format.elements, e.Fits := by
    intro e he
    rcases List.mem_pair.1 he with rfl | rfl
    · decide
    · decide
  obtain ⟨-, -, -, htrue⟩ := packed_of_override rfl hread
  obtain ⟨-, htiles⟩ := htrue hfits
  obtain ⟨-, hdisjoint, hstride⟩ := htiles hnone
  obtain ⟨htotal, hcovered⟩ := hstride rfl
  exact ⟨rfl, hread, rfl, hnone, htotal, hdisjoint, hcovered⟩

end TexturedVertex

end VertexFormat

end RenderMaterials
