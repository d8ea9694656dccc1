import RenderMaterials.Proofs.State.Inheritance

/-!
# Fields of state blocks

A declaration changes a block field by field.  Each field has a key, in the declaration itself or in
the object of a stencil face or of a render target; it is read from the value of its key, and kept
when the key is absent.

* `StateField`: a field of a block, with its key and with how its value is read.
* `StateField.Takes`: a field takes the value that a declaration has for it, or is kept.
* `StateCategory.fields`: the fields of the blocks of a category.
* `StateCategory.override_eq_ok`: a declaration gives the block whose fields take their values.
* `StateCategory.ext_fields`: the fields say all of a block.
-/

namespace RenderMaterials

/-! ### Parts of a declaration -/

/-- A part of a declaration that holds fields. -/
inductive StatePart where
  | whole
  | face (side : String)
  | target (n : Nat)
  deriving DecidableEq, Repr

namespace StatePart

/-- The object that a value is; an absent one says nothing, and other values are refused. -/
def asObject : Option Json → Except Json JsonObject
  | none   => .ok []
  | some v =>
    match v.object? with
    | some json => .ok json
    | none      => .error v

/-- The list that a value is; an absent one is empty, and other values are refused. -/
def asArray : Option Json → Except Json (List Json)
  | none   => .ok []
  | some v =>
    match v.array? with
    | some values => .ok values
    | none        => .error v

/-- The object of a part of a declaration. -/
def find (json : JsonObject) : StatePart → Except Json JsonObject
  | whole     => .ok json
  | face side => asObject (json.value? side)
  | target n  => asArray (json.value? "renderTargets") >>= fun values => asObject values[n]?

end StatePart

/-! ### Fields -/

/-- A field of a block: where its key stands, and how its value is read. -/
structure StateField (α : Type) where
  {Value : Type}
  part : StatePart := .whole
  key  : String
  read : Json → Option Value
  get  : α → Value

namespace StateField

variable {α β : Type} {s t : α} {json : JsonObject} {f : StateField α}

def bool (key : String) (get : α → Bool) : StateField α where
  key  := key
  read := Json.bool?
  get  := get

def natural (key : String) (bound : Nat) (get : α → Nat) : StateField α where
  key  := key
  read := fun v => v.natural?.filter (· < bound)
  get  := get

def int32 (key : String) (get : α → Int) : StateField α where
  key  := key
  read := fun v => v.integer?.filter (fun n => -Int.pow 2 31 ≤ n && n < Int.pow 2 31)
  get  := get

def binary32 (key : String) (get : α → Binary32) : StateField α where
  key  := key
  read := fun v => v.number?.map (fun n => .ofBinary64 n.toBinary)
  get  := get

def spelled [Spelled β] (key : String) (get : α → β) : StateField α where
  key  := key
  read := fun v => v.text?.bind Spelled.ofName?
  get  := get

/-- A field of a block that is itself part of a block. -/
def within (part : StatePart) (sub : α → β) (f : StateField β) : StateField α where
  part := part
  key  := f.key
  read := f.read
  get  := fun s => f.get (sub s)

/-- A field takes the value that an object has for it, or is kept. -/
def TakesFrom (f : StateField α) (o : JsonObject) (s t : α) : Prop :=
  match o.value? f.key with
  | none   => f.get t = f.get s
  | some v => f.read v = some (f.get t)

/-- A field takes the value that a declaration has for it, or is kept. -/
def Takes (f : StateField α) (json : JsonObject) (s t : α) : Prop :=
  ∃ o, f.part.find json = .ok o ∧ f.TakesFrom o s t

/-- A declaration has a value for a field. -/
def Mentioned (f : StateField α) (json : JsonObject) : Prop :=
  ∃ o, f.part.find json = .ok o ∧ o.has f.key = true

theorem Takes.kept (h : f.Takes json s t) (hm : ¬ f.Mentioned json) : f.get t = f.get s := by
  obtain ⟨o, ho, h⟩ := h
  unfold TakesFrom at h
  cases hv : o.value? f.key with
  | none => rwa [hv] at h
  | some v => exact absurd ⟨o, ho, Table.has_iff.2 ⟨v, hv⟩⟩ hm

/-- An empty declaration keeps every field. -/
theorem takes_nil_iff : f.Takes [] s t ↔ f.get t = f.get s := by
  have hfind : f.part.find [] = .ok [] := by
    cases f.part with
    | whole | face | target => rfl
  unfold Takes
  rw [hfind]
  constructor
  · rintro ⟨o, ho, h⟩
    obtain rfl := Except.ok.inj ho
    exact h
  · exact fun h => ⟨[], rfl, h⟩

theorem takes_whole_iff (h : f.part = .whole) : f.Takes json s t ↔ f.TakesFrom json s t := by
  unfold Takes
  rw [h]
  constructor
  · rintro ⟨o, ho, h⟩
    obtain rfl := Except.ok.inj ho
    exact h
  · exact fun h => ⟨json, rfl, h⟩

/-- The fields of a part take their values when the part is an object or absent. -/
theorem forall_takes_within {fs : List (StateField β)} (hne : fs ≠ []) (part : StatePart)
    (sub : α → β) :
    (∀ f ∈ fs.map (within part sub), f.Takes json s t) ↔
      ∃ o, part.find json = .ok o ∧ ∀ f ∈ fs, f.TakesFrom o (sub s) (sub t) := by
  rw [List.forall_mem_map]
  constructor
  · intro h
    obtain ⟨f, hf⟩ := List.exists_mem_of_ne_nil fs hne
    obtain ⟨o, ho, -⟩ := h f hf
    refine ⟨o, ho, fun f hf => ?_⟩
    obtain ⟨o', ho', h'⟩ := h f hf
    obtain rfl := Except.ok.inj (ho.symm.trans ho')
    exact h'
  · rintro ⟨o, ho, h⟩ f hf
    exact ⟨o, ho, h f hf⟩

end StateField

/-! ### Reading a field -/

namespace Overrides

variable {α β : Type} {o : Overrides} {name : String} {read : Json → Option α} {old a : α}

theorem field_eq_ok : o.field name read old = .ok a ↔
    match o.json.value? name with
    | none   => a = old
    | some v => read v = some a := by
  unfold field
  cases o.json.value? name with
  | none => simp [eq_comm]
  | some v => cases hr : read v <;> simp [hr]

/-- The fields of an object are read one by one. -/
theorem takesFrom_iff (category key : String) (read : Json → Option α) (get : β → α) {s t : β}
    {json : JsonObject} :
    (StateField.mk .whole key read get).TakesFrom json s t ↔
      field ⟨category, json⟩ key read (get s) = .ok (get t) := by
  rw [field_eq_ok]
  rfl

/-- What an object in a field is used for, where an absent one is used like an empty one. -/
theorem object_bind_eq_ok {f : Option JsonObject → Except MaterialError α}
    (hf : f none = f (some [])) :
    o.object name >>= f = .ok a ↔
      ∃ json, StatePart.asObject (o.json.value? name) = .ok json ∧ f (some json) = .ok a := by
  unfold object field StatePart.asObject
  cases o.json.value? name with
  | none => simp [hf]
  | some v => cases hv : v.object? <;> simp [hv]

end Overrides

/-! ### Rasterizer -/

def RasterizerState.fields : List (StateField RasterizerState) :=
  [.spelled "fillMode" (·.fillMode), .spelled "cullMode" (·.cullMode),
    .bool "frontCounterClockwise" (·.frontCounterClockwise), .int32 "depthBias" (·.depthBias),
    .binary32 "depthBiasClamp" (·.depthBiasClamp),
    .binary32 "slopeScaledDepthBias" (·.slopeScaledDepthBias),
    .bool "depthClipEnable" (·.depthClipEnable), .bool "multisampleEnable" (·.multisampleEnable),
    .bool "antialiasedLineEnable" (·.antialiasedLineEnable),
    .natural "forcedSampleCount" word32Bound (·.forcedSampleCount),
    .bool "conservativeRaster" (·.conservativeRaster)]

theorem RasterizerState.override_eq_ok {s t : RasterizerState} {json : JsonObject} :
    s.override json = .ok t ↔ ∀ f ∈ fields, f.Takes json s t := by
  simp only [override, fields, Result.bind_eq_ok, Result.pure_eq, Except.ok.injEq,
    List.forall_mem_cons, StateField.spelled, StateField.bool, StateField.int32,
    StateField.binary32, StateField.natural, StateField.takes_whole_iff,
    Overrides.takesFrom_iff "rasterizer"]
  constructor
  · rintro ⟨_, h₁, _, h₂, _, h₃, _, h₄, _, h₅, _, h₆, _, h₇, _, h₈, _, h₉, _, h₁₀, _, h₁₁, rfl⟩
    exact ⟨h₁, h₂, h₃, h₄, h₅, h₆, h₇, h₈, h₉, h₁₀, h₁₁, by simp⟩
  · rintro ⟨h₁, h₂, h₃, h₄, h₅, h₆, h₇, h₈, h₉, h₁₀, h₁₁, -⟩
    exact ⟨_, h₁, _, h₂, _, h₃, _, h₄, _, h₅, _, h₆, _, h₇, _, h₈, _, h₉, _, h₁₀, _, h₁₁, rfl⟩

/-! ### Depth and stencil -/

namespace StencilFace

def fields : List (StateField StencilFace) :=
  [.spelled "stencilFailOp" (·.failOp), .spelled "stencilDepthFailOp" (·.depthFailOp),
    .spelled "stencilPassOp" (·.passOp), .spelled "stencilFunc" (·.func)]

theorem override_eq_ok {s t : StencilFace} {json : JsonObject} :
    s.override json = .ok t ↔ ∀ f ∈ fields, f.TakesFrom json s t := by
  simp only [override, fields, Result.bind_eq_ok, Result.pure_eq, Except.ok.injEq,
    List.forall_mem_cons, StateField.spelled, Overrides.takesFrom_iff "depthStencil"]
  constructor
  · rintro ⟨_, h₁, _, h₂, _, h₃, _, h₄, rfl⟩
    exact ⟨h₁, h₂, h₃, h₄, by simp⟩
  · rintro ⟨h₁, h₂, h₃, h₄, -⟩
    exact ⟨_, h₁, _, h₂, _, h₃, _, h₄, rfl⟩

/-- One side is overridden by the object in its field, an absent one being empty. -/
theorem overrideIn_eq_ok {α : Type} (category : String) (sub : α → StencilFace) {s t : α}
    {json : JsonObject} {side : String} :
    (sub s).overrideIn ⟨category, json⟩ side = .ok (sub t) ↔
      ∀ f ∈ fields.map (StateField.within (.face side) sub), f.Takes json s t := by
  rw [StateField.forall_takes_within (by simp [fields]), overrideIn,
    Overrides.object_bind_eq_ok rfl]
  exact exists_congr fun json => and_congr_right fun _ => override_eq_ok

end StencilFace

def DepthStencilState.fields : List (StateField DepthStencilState) :=
  [.bool "depthEnable" (·.depthEnable), .spelled "depthWriteMask" (·.depthWriteMask),
    .spelled "depthFunc" (·.depthFunc), .bool "stencilEnable" (·.stencilEnable),
    .natural "stencilReadMask" 256 (·.stencilReadMask),
    .natural "stencilWriteMask" 256 (·.stencilWriteMask)] ++
  StencilFace.fields.map (.within (.face "frontFace") (·.frontFace)) ++
  StencilFace.fields.map (.within (.face "backFace") (·.backFace))

theorem DepthStencilState.override_eq_ok {s t : DepthStencilState} {json : JsonObject} :
    s.override json = .ok t ↔ ∀ f ∈ fields, f.Takes json s t := by
  simp only [override, fields, Result.bind_eq_ok, Result.pure_eq, Except.ok.injEq,
    List.forall_mem_append, List.forall_mem_cons, StateField.bool, StateField.spelled,
    StateField.natural, StateField.takes_whole_iff, Overrides.takesFrom_iff "depthStencil"]
  constructor
  · rintro ⟨_, h₁, _, h₂, _, h₃, _, h₄, _, h₅, _, h₆, _, h₇, _, h₈, rfl⟩
    exact ⟨⟨⟨h₁, h₂, h₃, h₄, h₅, h₆, by simp⟩, (StencilFace.overrideIn_eq_ok _ _).1 h₇⟩,
      (StencilFace.overrideIn_eq_ok _ _).1 h₈⟩
  · rintro ⟨⟨⟨h₁, h₂, h₃, h₄, h₅, h₆, -⟩, h₇⟩, h₈⟩
    have hfront := (StencilFace.overrideIn_eq_ok "depthStencil" _).2 h₇
    have hback := (StencilFace.overrideIn_eq_ok "depthStencil" _).2 h₈
    exact ⟨_, h₁, _, h₂, _, h₃, _, h₄, _, h₅, _, h₆, _, hfront, _, hback, rfl⟩

/-! ### Blending -/

namespace TargetBlend

def fields : List (StateField TargetBlend) :=
  [.bool "blendEnable" (·.blendEnable), .bool "logicOpEnable" (·.logicOpEnable),
    .spelled "srcBlend" (·.srcBlend), .spelled "destBlend" (·.destBlend),
    .spelled "blendOp" (·.blendOp), .spelled "srcBlendAlpha" (·.srcBlendAlpha),
    .spelled "destBlendAlpha" (·.destBlendAlpha), .spelled "blendOpAlpha" (·.blendOpAlpha),
    .spelled "logicOp" (·.logicOp),
    { key := "renderTargetWriteMask", read := ColorWriteMask.read?, get := (·.writeMask) }]

theorem override_eq_ok {s t : TargetBlend} {json : JsonObject} :
    s.override json = .ok t ↔ ∀ f ∈ fields, f.TakesFrom json s t := by
  simp only [override, fields, Result.bind_eq_ok, Result.pure_eq, Except.ok.injEq,
    List.forall_mem_cons, StateField.spelled, StateField.bool, Overrides.takesFrom_iff "blend"]
  constructor
  · rintro ⟨_, h₁, _, h₂, _, h₃, _, h₄, _, h₅, _, h₆, _, h₇, _, h₈, _, h₉, _, h₁₀, rfl⟩
    exact ⟨h₁, h₂, h₃, h₄, h₅, h₆, h₇, h₈, h₉, h₁₀, by simp⟩
  · rintro ⟨h₁, h₂, h₃, h₄, h₅, h₆, h₇, h₈, h₉, h₁₀, -⟩
    exact ⟨_, h₁, _, h₂, _, h₃, _, h₄, _, h₅, _, h₆, _, h₇, _, h₈, _, h₉, _, h₁₀, rfl⟩

theorem overrideEach_nil (o : Overrides) (ts : List TargetBlend) :
    overrideEach o ts [] = .ok ts := by
  cases ts <;> rfl

/-- The first target is overridden by the first object, an absent one being empty. -/
theorem overrideEach_cons {o : Overrides} {t : TargetBlend} {ts us : List TargetBlend}
    {vs : List Json} :
    overrideEach o (t :: ts) vs = .ok us ↔ ∃ json, StatePart.asObject vs[0]? = .ok json ∧
      ∃ u us', t.override json = .ok u ∧ overrideEach o ts vs.tail = .ok us' ∧ u :: us' = us := by
  cases vs with
  | nil =>
      have hkept : t.override [] = .ok t := rfl
      simp [overrideEach_nil, StatePart.asObject, hkept]
  | cons v vs =>
      conv_lhs => unfold overrideEach
      cases hv : v.object? with
      | none => simp [StatePart.asObject, hv]
      | some json => simp [StatePart.asObject, hv, Result.bind_eq_ok]

/-- Each target is overridden by the object in its position, an absent one being empty. -/
theorem overrideEach_eq_ok {o : Overrides} {ts us : List TargetBlend} {vs : List Json} :
    overrideEach o ts vs = .ok us ↔ us.length = ts.length ∧ ∀ i < ts.length, ∃ json,
      StatePart.asObject vs[i]? = .ok json ∧
        ∀ f ∈ fields, f.TakesFrom json (ts.getD i {}) (us.getD i {}) := by
  induction ts generalizing vs us with
  | nil =>
      unfold overrideEach
      simp [eq_comm]
  | cons t ts ih =>
      rw [overrideEach_cons]
      constructor
      · rintro ⟨json, hjson, u, us, hu, hus, rfl⟩
        obtain ⟨hlength, hrest⟩ := ih.1 hus
        refine ⟨by simp [hlength], fun i hi => ?_⟩
        cases i with
        | zero => exact ⟨json, hjson, override_eq_ok.1 hu⟩
        | succ i => simpa using hrest i (Nat.lt_of_succ_lt_succ hi)
      · rintro ⟨hlength, hall⟩
        obtain ⟨u, us, rfl⟩ := List.exists_cons_of_length_eq_add_one hlength
        obtain ⟨json, hjson, hu⟩ := hall 0 (Nat.succ_pos _)
        refine ⟨json, hjson, u, us, override_eq_ok.2 hu, ih.2 ⟨by simpa using hlength, ?_⟩, rfl⟩
        intro i hi
        simpa using hall (i + 1) (Nat.succ_lt_succ hi)

/-- The targets are overridden by the array in a field, an absent one being empty. -/
theorem overrideIn_eq_ok {o : Overrides} {ts us : List TargetBlend} (hts : ts ≠ []) :
    overrideIn o "renderTargets" ts = .ok us ↔ us.length = ts.length ∧ ∀ i < ts.length, ∃ json,
      (StatePart.target i).find o.json = .ok json ∧
        ∀ f ∈ fields, f.TakesFrom json (ts.getD i {}) (us.getD i {}) := by
  unfold overrideIn Overrides.array Overrides.field StatePart.find StatePart.asArray
  cases o.json.value? "renderTargets" with
  | none =>
      have h : overrideEach o ts [] = .ok us ↔ _ := overrideEach_eq_ok
      simpa [overrideEach_nil, StatePart.asObject] using h
  | some v =>
      cases hv : v.array? with
      | none =>
          -- there is a target to be read, and no list to read it from
          have hpos := List.length_pos_iff.2 hts
          simpa [hv] using fun _ => ⟨0, hpos⟩
      | some vs => simpa [hv] using overrideEach_eq_ok

end TargetBlend

namespace BlendState

def fields : List (StateField BlendState) :=
  [.bool "alphaToCoverageEnable" (·.alphaToCoverageEnable),
    .bool "independentBlendEnable" (·.independentBlendEnable)] ++
  (List.range maxRenderTargets).flatMap fun i =>
    TargetBlend.fields.map (.within (.target i) (·.targets.getD i {}))

theorem override_eq_ok {s t : BlendState} {json : JsonObject}
    (hs : s.targets.length = maxRenderTargets) :
    s.override json = .ok t ↔
      t.targets.length = maxRenderTargets ∧ ∀ f ∈ fields, f.Takes json s t := by
  have htargets : ∀ us, TargetBlend.overrideIn ⟨"blend", json⟩ "renderTargets" s.targets = .ok us ↔
      us.length = maxRenderTargets ∧ ∀ i < maxRenderTargets, ∃ o,
        (StatePart.target i).find json = .ok o ∧
          ∀ f ∈ TargetBlend.fields, f.TakesFrom o (s.targets.getD i {}) (us.getD i {}) :=
    fun us => hs ▸ TargetBlend.overrideIn_eq_ok (List.ne_nil_of_length_eq_add_one hs)
  have hne : TargetBlend.fields ≠ [] := by simp [TargetBlend.fields]
  simp only [override, Result.bind_eq_ok, Result.pure_eq, Except.ok.injEq, htargets, fields,
    List.forall_mem_append, List.forall_mem_cons, List.forall_mem_flatMap, List.mem_range,
    StateField.forall_takes_within hne,
    StateField.bool, StateField.takes_whole_iff, Overrides.takesFrom_iff "blend"]
  constructor
  · rintro ⟨_, h₁, _, h₂, _, ⟨hlength, h₃⟩, rfl⟩
    exact ⟨hlength, ⟨h₁, h₂, by simp⟩, h₃⟩
  · rintro ⟨hlength, ⟨h₁, h₂, -⟩, h₃⟩
    exact ⟨_, h₁, _, h₂, _, ⟨hlength, h₃⟩, rfl⟩

end BlendState

/-! ### Render targets -/

namespace TexelFormat

/-- The format of a name. -/
def read? (v : Json) : Option TexelFormat := v.text?.bind Spelled.ofName?

/-- A list of at most eight names of formats. -/
def readAll? (v : Json) : Option (List TexelFormat) :=
  match v.array? with
  | none    => none
  | some vs => if vs.length > maxRenderTargets then none else vs.mapM read?

theorem read_eq_ok {o : Overrides} {field : String} {v : Json} {f : TexelFormat} :
    read o field v = .ok f ↔ read? v = some f := by
  unfold read read?
  cases (v.text?.bind Spelled.ofName? : Option TexelFormat) <;> simp

theorem mapM_read_eq_ok {o : Overrides} {field : String} {vs : List Json} {fs : List TexelFormat} :
    vs.mapM (read o field) = .ok fs ↔ vs.mapM read? = some fs := by
  induction vs generalizing fs with
  | nil => simp
  | cons v vs ih =>
      rw [List.mapM_cons, List.mapM_cons, Result.bind_eq_ok]
      simp [read_eq_ok, Result.bind_eq_ok, ih, Option.bind_eq_some_iff]

/-- The formats of a field are read together. -/
theorem readIn_eq_ok {o : Overrides} {field : String} {old fs : List TexelFormat} :
    readIn o field old = .ok fs ↔ o.field field readAll? old = .ok fs := by
  unfold readIn Overrides.array Overrides.field readAll?
  cases o.json.value? field with
  | none => simp
  | some v =>
      cases hv : v.array? with
      | none => simp [hv]
      | some vs =>
          by_cases hlength : vs.length > maxRenderTargets
          · simp [hv, readList, hlength]
          · have hmapM : vs.mapM (read o field) = .ok fs ↔ _ := mapM_read_eq_ok
            cases hr : vs.mapM read? with
            | none => simpa [hv, readList, hlength, hr] using hmapM
            | some fs' => simpa [hv, readList, hlength, hr] using hmapM

end TexelFormat

namespace RenderTargetState

def fields : List (StateField RenderTargetState) :=
  [{ key := "rtvFormats", read := TexelFormat.readAll?, get := (·.colorFormats) },
    .spelled "dsvFormat" (·.depthFormat), .natural "sampleCount" word32Bound (·.sampleCount),
    .natural "sampleQuality" word32Bound (·.sampleQuality)]

theorem override_eq_ok {s t : RenderTargetState} {json : JsonObject} :
    s.override json = .ok t ↔ ∀ f ∈ fields, f.Takes json s t := by
  simp only [override, fields, Result.bind_eq_ok, Result.pure_eq, Except.ok.injEq,
    List.forall_mem_cons, TexelFormat.readIn_eq_ok, StateField.spelled, StateField.natural,
    StateField.takes_whole_iff, Overrides.takesFrom_iff "renderTarget"]
  constructor
  · rintro ⟨_, h₁, _, h₂, _, h₃, _, h₄, rfl⟩
    exact ⟨h₁, h₂, h₃, h₄, by simp⟩
  · rintro ⟨h₁, h₂, h₃, h₄, -⟩
    exact ⟨_, h₁, _, h₂, _, h₃, _, h₄, rfl⟩

end RenderTargetState

/-! ### Categories -/

namespace StateCategory

/-- The fields of the blocks of a category; vertex formats are read as a whole. -/
def fields : (c : StateCategory) → List (StateField c.Block)
  | rasterizer   => RasterizerState.fields
  | depthStencil => DepthStencilState.fields
  | blend        => BlendState.fields
  | renderTarget => RenderTargetState.fields
  | vertexFormat => []

/-- A blend has as many targets as there can be. -/
def Sized : (c : StateCategory) → c.Block → Prop
  | rasterizer   => fun _ => True
  | depthStencil => fun _ => True
  | blend        => fun s : BlendState => s.targets.length = maxRenderTargets
  | renderTarget => fun _ => True
  | vertexFormat => fun _ => True

theorem sized_initial (c : StateCategory) : c.Sized StateBlock.initial := by
  cases c with
  | blend => rfl
  | rasterizer | depthStencil | renderTarget | vertexFormat => trivial

/-- A declaration gives the block whose fields take their values, or are kept. -/
theorem override_eq_ok {c : StateCategory} (hc : c ≠ .vertexFormat) {s t : c.Block}
    {json : JsonObject} (hs : c.Sized s) :
    StateBlock.override s json = .ok t ↔ c.Sized t ∧ ∀ f ∈ c.fields, f.Takes json s t := by
  cases c with
  | rasterizer => exact RasterizerState.override_eq_ok.trans (and_iff_right trivial).symm
  | depthStencil => exact DepthStencilState.override_eq_ok.trans (and_iff_right trivial).symm
  | blend => exact BlendState.override_eq_ok hs
  | renderTarget => exact RenderTargetState.override_eq_ok.trans (and_iff_right trivial).symm
  | vertexFormat => exact absurd rfl hc

/-- A declaration that says nothing gives the block as it is. -/
theorem override_nil (c : StateCategory) (s : c.Block) : StateBlock.override s [] = .ok s := by
  cases c with
  | rasterizer | depthStencil | blend | renderTarget | vertexFormat => rfl

/-- The fields say all of a block. -/
theorem ext_fields {c : StateCategory} (hc : c ≠ .vertexFormat) {s t : c.Block} (hs : c.Sized s)
    (ht : c.Sized t) (h : ∀ f ∈ c.fields, f.get t = f.get s) : t = s := by
  have hover : StateBlock.override s [] = .ok t :=
    (override_eq_ok hc hs).2 ⟨ht, fun f hf => StateField.takes_nil_iff.2 (h f hf)⟩
  exact Except.ok.inj (hover.symm.trans (override_nil c s))

end StateCategory

end RenderMaterials
