import RenderMaterials.Proofs.State.Fields

/-!
# Declarations over declarations

A declaration that inherits from another says the same as one that has all keys of both, its own
before those of its base.  The objects of stencil faces and of render targets are put together key
by key, the targets position by position.

* `JsonObject.overlay`: a declaration over another; `value?_overlay`: what it has for a key.
* `StatePart.find_overlay`: its parts have the keys of both, those of the upper one first.
* `StateField.Takes.overlay`: so a field takes from it what it takes from one and then from the
  other.
* `StateCategory.override_overlay`: a block that inherits is that of one declaration over the other.
* `StateCategory.resolves_overlay`: and so is a block at the end of a chain of bases.
-/

namespace RenderMaterials

/-! ### Putting declarations together -/

namespace Json

/-- An object over another, key by key; other values are replaced. -/
def overlay : Json → Json → Json
  | object upper, object lower => object (upper ++ lower.filter fun e => !Table.has upper e.1)
  | v,            _            => v

/-- A list over another, position by position as far as a number of them goes. -/
def overlayEach : Nat → List Json → List Json → List Json
  | 0,     upper,      _          => upper
  | _ + 1, [],         lower      => lower
  | _ + 1, upper,      []         => upper
  | n + 1, v :: upper, w :: lower => v.overlay w :: overlayEach n upper lower

/-- The value of a key over the one that it had: those of faces and of targets are put together. -/
def overlayAt (key : String) : Json → Json → Json
  | array upper, array lower =>
    if key = "renderTargets" then array (overlayEach maxRenderTargets upper lower) else array upper
  | v,           w           => if key = "frontFace" ∨ key = "backFace" then v.overlay w else v

end Json

namespace JsonObject

/-- A declaration over another: its own keys, and those that only the other has. -/
def overlay (upper lower : JsonObject) : JsonObject :=
  upper.map (fun e => (e.1, ((lower.value? e.1).map (Json.overlayAt e.1 e.2)).getD e.2)) ++
    lower.filter fun e => !upper.has e.1

/-- What two declarations have in a place, put together. -/
def both (f : Json → Json → Json) : Option Json → Option Json → Option Json
  | some v, some w => some (f v w)
  | some v, none   => some v
  | none,   w      => w

/-- The keys whose values are put together. -/
def nestedKeys : List String := ["frontFace", "backFace", "renderTargets"]

variable {key : String} {v w : Json}

theorem value?_overlay (upper lower : JsonObject) (key : String) :
    (upper.overlay lower).value? key =
      both (Json.overlayAt key) (upper.value? key) (lower.value? key) := by
  rw [overlay, Table.value?_append,
    Table.value?_map upper fun k v => ((lower.value? k).map (Json.overlayAt k v)).getD v,
    Table.value?_filter_keys lower fun k => !upper.has k, Table.has]
  cases upper.value? key with
  | none => simp [both]
  | some v => cases lower.value? key <;> simp [both]

theorem value?_object_overlay (upper lower : JsonObject) (key : String) :
    Table.value? (upper ++ lower.filter fun e => !Table.has upper e.1) key =
      (upper.value? key).or (lower.value? key) := by
  rw [Table.value?_append, Table.value?_filter_keys lower fun k => !upper.has k, Table.has]
  cases upper.value? key <;> simp

theorem overlayAt_face (h : key = "frontFace" ∨ key = "backFace") :
    Json.overlayAt key v w = v.overlay w := by
  have hkey : key ≠ "renderTargets" := by
    rcases h with rfl | rfl <;> decide
  cases v <;> cases w <;> simp [Json.overlayAt, Json.overlay, h, hkey]

theorem overlayAt_other (h : key ∉ nestedKeys) : Json.overlayAt key v w = v := by
  simp only [nestedKeys, List.mem_cons, List.not_mem_nil, or_false, not_or] at h
  cases v <;> cases w <;> simp [Json.overlayAt, h]

theorem getElem?_overlayEach {m n : Nat} (h : n < m) (vs ws : List Json) :
    (Json.overlayEach m vs ws)[n]? = both Json.overlay vs[n]? ws[n]? := by
  induction m generalizing n vs ws with
  | zero => exact absurd h (Nat.not_lt_zero n)
  | succ m ih =>
      cases vs with
      | nil => simp [Json.overlayEach, both]
      | cons v vs =>
          cases ws with
          | nil => cases hv : (v :: vs)[n]? <;> simp [Json.overlayEach, both, hv]
          | cons w ws =>
              cases n with
              | zero => rfl
              | succ n => simpa [Json.overlayEach] using ih (Nat.lt_of_succ_lt_succ h) vs ws

end JsonObject

/-! ### Parts of both -/

open JsonObject (both nestedKeys value?_overlay)

variable {upper lower u l : JsonObject}

namespace StatePart

/-- Two objects are put together key by key, an absent one being empty. -/
theorem asObject_both {x y : Option Json} (hu : asObject x = .ok u) (hl : asObject y = .ok l) :
    ∃ o, asObject (both Json.overlay x y) = .ok o ∧
      ∀ key, o.value? key = (u.value? key).or (l.value? key) := by
  have hobject : ∀ {v : Json} {o : JsonObject}, asObject (some v) = .ok o → v = .object o := by
    intro v o h
    cases v <;> simp_all [asObject, Json.object?]
  cases x with
  | none =>
      obtain rfl := Except.ok.inj hu
      exact ⟨l, hl, fun key => rfl⟩
  | some v =>
      obtain rfl := hobject hu
      cases y with
      | none =>
          obtain rfl := Except.ok.inj hl
          exact ⟨u, rfl, fun key => (Option.or_none).symm⟩
      | some w =>
          obtain rfl := hobject hl
          exact ⟨_, rfl, JsonObject.value?_object_overlay u l⟩

/-- Two lists are put together position by position, an absent one being empty. -/
theorem asArray_both {x y : Option Json} {vs ws : List Json} (hv : asArray x = .ok vs)
    (hw : asArray y = .ok ws) :
    ∃ us, asArray (both (Json.overlayAt "renderTargets") x y) = .ok us ∧
      ∀ n < maxRenderTargets, us[n]? = both Json.overlay vs[n]? ws[n]? := by
  have harray : ∀ {v : Json} {vs : List Json}, asArray (some v) = .ok vs → v = .array vs := by
    intro v vs h
    cases v <;> simp_all [asArray, Json.array?]
  cases x with
  | none =>
      obtain rfl := Except.ok.inj hv
      exact ⟨ws, hw, fun n _ => rfl⟩
  | some v =>
      obtain rfl := harray hv
      cases y with
      | none =>
          obtain rfl := Except.ok.inj hw
          exact ⟨vs, rfl, fun n _ => by cases vs[n]? <;> rfl⟩
      | some w =>
          obtain rfl := harray hw
          exact ⟨_, rfl, fun n hn => JsonObject.getElem?_overlayEach hn vs ws⟩

/-- The parts that blocks have. -/
def Known : StatePart → Prop
  | whole     => True
  | face side => side = "frontFace" ∨ side = "backFace"
  | target n  => n < maxRenderTargets

instance : DecidablePred Known
  | whole     => isTrue trivial
  | face side => inferInstanceAs (Decidable (side = "frontFace" ∨ side = "backFace"))
  | target n  => inferInstanceAs (Decidable (n < maxRenderTargets))

/-- A part of a declaration over another has the keys of both, the upper one's first. -/
theorem find_overlay {part : StatePart} (hp : part.Known) (hu : part.find upper = .ok u)
    (hl : part.find lower = .ok l) :
    ∃ o, part.find (upper.overlay lower) = .ok o ∧
      ∀ key, (part = .whole → key ∉ nestedKeys) →
        o.value? key = (u.value? key).or (l.value? key) := by
  cases part with
  | whole =>
      obtain rfl := Except.ok.inj hu
      obtain rfl := Except.ok.inj hl
      refine ⟨_, rfl, fun key hkey => ?_⟩
      rw [value?_overlay]
      cases Table.value? upper key with
      | none => rfl
      | some v =>
          cases Table.value? lower key <;> simp [both, JsonObject.overlayAt_other (hkey rfl)]
  | face side =>
      have hside : (upper.overlay lower).value? side =
          both Json.overlay (upper.value? side) (lower.value? side) := by
        rw [value?_overlay]
        cases upper.value? side with
        | none => rfl
        | some v => cases lower.value? side <;> simp [both, JsonObject.overlayAt_face hp]
      obtain ⟨o, ho, hkeys⟩ := asObject_both hu hl
      exact ⟨o, by rw [find, hside, ho], fun key _ => hkeys key⟩
  | target n =>
      obtain ⟨vs, hv, hu⟩ := Result.bind_eq_ok.1 hu
      obtain ⟨ws, hw, hl⟩ := Result.bind_eq_ok.1 hl
      obtain ⟨us, hus, hboth⟩ := asArray_both hv hw
      obtain ⟨o, ho, hkeys⟩ := asObject_both hu hl
      refine ⟨o, ?_, fun key _ => hkeys key⟩
      rw [find, value?_overlay, hus, Result.ok_bind, hboth n hp, ho]

end StatePart

/-! ### Fields of both -/

namespace StateField

variable {α : Type} {f : StateField α} {r s t : α}

/-- A field stands in a part that blocks have, and its key is not that of another part. -/
structure Fits (f : StateField α) : Prop where
  part : f.part.Known
  key  : f.part = .whole → f.key ∉ nestedKeys

/-- Where fields stand can be looked through. -/
theorem forall_fits {fs : List (StateField α)}
    (h : ∀ place ∈ fs.map fun f => (f.part, f.key),
      place.1.Known ∧ (place.1 = .whole → place.2 ∉ nestedKeys)) : ∀ f ∈ fs, f.Fits := by
  intro f hf
  obtain ⟨hpart, hkey⟩ := h _ (List.mem_map_of_mem hf)
  exact ⟨hpart, hkey⟩

/-- A field takes from a declaration over another what it takes from the other and then from it. -/
theorem Takes.overlay (hf : f.Fits) (hl : f.Takes lower r s) (hu : f.Takes upper s t) :
    f.Takes (upper.overlay lower) r t := by
  obtain ⟨l, hl, hs⟩ := hl
  obtain ⟨u, hu, ht⟩ := hu
  obtain ⟨o, ho, hkeys⟩ := StatePart.find_overlay hf.part hu hl
  refine ⟨o, ho, ?_⟩
  unfold TakesFrom at hs ht ⊢
  rw [hkeys f.key hf.key]
  cases hv : u.value? f.key with
  | some v => simpa [hv] using ht
  | none =>
      have hkept : f.get t = f.get s := by simpa [hv] using ht
      simpa [hkept] using hs

end StateField

/-! ### Blocks -/

namespace StateCategory

variable {c : StateCategory}

theorem fits_of_mem : ∀ f ∈ c.fields, f.Fits := by
  refine StateField.forall_fits ?_
  cases c with
  | rasterizer | depthStencil | blend | renderTarget | vertexFormat => decide +kernel

/-- What two declarations make of a block in turn, they make of it together. -/
theorem override_both (hc : c ≠ .vertexFormat) {r s t : c.Block} (hr : c.Sized r)
    (hs : StateBlock.override r lower = .ok s) (ht : StateBlock.override s upper = .ok t) :
    StateBlock.override r (upper.overlay lower) = .ok t := by
  obtain ⟨hsize, hs⟩ := (override_eq_ok hc hr).1 hs
  obtain ⟨htsize, ht⟩ := (override_eq_ok hc hsize).1 ht
  refine (override_eq_ok hc hr).2 ⟨htsize, fun f hf => ?_⟩
  exact (hs f hf).overlay (fits_of_mem f hf) (ht f hf)

/-- A block at the end of a chain of bases is that of one declaration, in which each declaration of
the chain is put over those before it. -/
theorem resolves_overlay (hc : c ≠ .vertexFormat) {declared : Table String JsonObject} {id : String}
    {t : c.Block} (h : StateBlock.Resolves declared id t) :
    ∃ line, StateBlock.Lineage declared id line ∧
      StateBlock.override StateBlock.initial
        (line.foldl (fun lower upper => upper.overlay lower) []) = .ok t := by
  obtain ⟨line, hl, h⟩ := h
  refine ⟨line, hl, ?_⟩
  clear hl
  induction line using List.reverseRecOn generalizing t with
  | nil =>
      obtain rfl := Except.ok.inj h
      exact override_nil c _
  | append_singleton line json ih =>
      rw [List.foldlM_append, Result.bind_eq_ok] at h
      obtain ⟨s, hs, h⟩ := h
      obtain ⟨t', ht, h⟩ := Result.bind_eq_ok.1 h
      obtain rfl := Except.ok.inj h
      rw [List.foldl_append]
      exact override_both hc c.sized_initial (ih hs) ht

/-- A block that inherits is that of its declaration over the one of its base.  The fields that the
declaration does not mention are those of the base, and the fields say all of the block. -/
theorem override_overlay (hc : c ≠ .vertexFormat) {base child : JsonObject} {s t : c.Block}
    (hs : StateBlock.override StateBlock.initial base = .ok s)
    (ht : StateBlock.override s child = .ok t) :
    StateBlock.override StateBlock.initial (child.overlay base) = .ok t ∧
    (∀ f ∈ c.fields, ¬ f.Mentioned child → f.get t = f.get s) ∧
    ∀ u, c.Sized u → (∀ f ∈ c.fields, f.get u = f.get t) → u = t := by
  obtain ⟨hsize, -⟩ := (override_eq_ok hc c.sized_initial).1 hs
  obtain ⟨htsize, hkept⟩ := (override_eq_ok hc hsize).1 ht
  exact ⟨override_both hc c.sized_initial hs ht, fun f hf => (hkept f hf).kept,
    fun u hu => ext_fields hc htsize hu⟩

/-! ### A blend over another -/

namespace LayeredBlend

/-- A blend of two targets. -/
def base : JsonObject :=
  [("renderTargets", .array [.object [("blendEnable", .bool true)],
    .object [("srcBlend", .text "SrcAlpha")]])]

/-- A blend that inherits from it and changes the first target. -/
def child : JsonObject :=
  [("alphaToCoverageEnable", .bool true),
    ("renderTargets", .array [.object [("destBlend", .text "SrcAlpha")]])]

def baseBlock : BlendState where
  targets := [{ blendEnable := true }, { srcBlend := .srcAlpha }] ++ List.replicate 6 {}

def childBlock : BlendState where
  alphaToCoverageEnable := true
  targets := [{ blendEnable := true, destBlend := .srcAlpha }, { srcBlend := .srcAlpha }] ++
    List.replicate 6 {}

theorem overridden : BlendState.override {} base = .ok baseBlock ∧
    BlendState.override baseBlock child = .ok childBlock := by decide +kernel

/-- The first target has the fields of both. -/
theorem child_over_base :
    BlendState.override {} (child.overlay base) = .ok childBlock ∧
    ∀ f ∈ BlendState.fields, ¬ f.Mentioned child → f.get childBlock = f.get baseBlock := by
  have hbase : StateBlock.override (StateBlock.initial : blend.Block) base = .ok baseBlock :=
    overridden.1
  have hchild : StateBlock.override (show blend.Block from baseBlock) child = .ok childBlock :=
    overridden.2
  obtain ⟨hover, hkept, -⟩ := override_overlay (by decide) hbase hchild
  exact ⟨hover, hkept⟩

end LayeredBlend

end StateCategory

end RenderMaterials
