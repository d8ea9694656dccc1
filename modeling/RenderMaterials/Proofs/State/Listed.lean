import RenderMaterials.Proofs.Json.Listed
import RenderMaterials.Proofs.State.Inheritance

/-!
# State blocks — keyed and listed declarations

No block reads the field that holds the name of a listed declaration.  So the declarations of a
category resolve to the same blocks, or fail with the same error, in either form.

* `StateCategory.override_congr`: what a declaration changes says nothing about its `id`.
* `StateBlock.resolveInto_congr`, `StateBlock.resolveAll_congr`: blocks are resolved alike from
  declarations that agree but for the `id`.
* `StateRegistry.read_congr`: a registry is read alike from categories in either form.
-/

namespace RenderMaterials

open Json (AgreeBut Listed)

/-! ### Fields that a block reads -/

section Fields

variable {json json' : JsonObject}

theorem Overrides.field_congr (h : AgreeBut "id" (.object json) (.object json')) {name : String}
    (hn : name ≠ "id") {α : Type} (category : String) (read : Json → Option α) (old : α) :
    Overrides.field ⟨category, json'⟩ name read old =
      Overrides.field ⟨category, json⟩ name read old := by
  have hv : Table.value? json' name = Table.value? json name := h name hn
  unfold Overrides.field
  simp only [hv, invalid]

/-- The targets of a blend are looked into by themselves. -/
theorem TargetBlend.overrideEach_congr (category : String) (ts : List TargetBlend)
    (vs : List Json) :
    overrideEach ⟨category, json'⟩ ts vs = overrideEach ⟨category, json⟩ ts vs := by
  induction ts generalizing vs with
  | nil => rfl
  | cons t ts ih =>
      cases vs with
      | nil => rfl
      | cons v vs =>
          simp only [overrideEach, ih, Overrides.invalid]

/-- What a declaration changes says nothing about its `id`. -/
theorem StateCategory.override_congr (h : AgreeBut "id" (.object json) (.object json')) :
    ∀ (c : StateCategory) (b : c.Block), StateBlock.override b json' = StateBlock.override b json
  | .rasterizer, b => by
      change RasterizerState.override b json' = RasterizerState.override b json
      simp (disch := decide) only [RasterizerState.override, Overrides.spelled, Overrides.bool,
        Overrides.int32, Overrides.binary32, Overrides.natural, Overrides.field_congr h]
  | .depthStencil, b => by
      change DepthStencilState.override b json' = DepthStencilState.override b json
      simp (disch := decide) only [DepthStencilState.override, Overrides.spelled, Overrides.bool,
        Overrides.natural, StencilFace.overrideIn, Overrides.object, Overrides.field_congr h]
  | .blend, b => by
      change BlendState.override b json' = BlendState.override b json
      have heach := @TargetBlend.overrideEach_congr json json' "blend"
      simp (disch := decide) only [BlendState.override, Overrides.bool, TargetBlend.overrideIn,
        Overrides.array, Overrides.field_congr h, heach]
  | .renderTarget, b => by
      change RenderTargetState.override b json' = RenderTargetState.override b json
      simp (disch := decide) only [RenderTargetState.override, Overrides.spelled, Overrides.natural,
        TexelFormat.readIn, Overrides.array, Overrides.field_congr h]
      rfl
  | .vertexFormat, b => by
      change VertexFormat.override b json' = VertexFormat.override b json
      simp (disch := decide) only [VertexFormat.override, Overrides.natural, Overrides.array,
        Overrides.field_congr h]

end Fields

/-! ### Resolving -/

namespace StateBlock

variable {α : Type} [StateBlock α]
  {declared declared' remaining remaining' : Table String JsonObject}

/-- Declarations that agree but for the `id`. -/
def Alike (json json' : JsonObject) : Prop := AgreeBut "id" (.object json) (.object json')

/-- Tables with alike declarations under the same ids. -/
def SameBlocks (declared declared' : Table String JsonObject) : Prop :=
  ∀ id, Option.Rel Alike (declared.value? id) (declared'.value? id)

theorem base?_congr {json json' : JsonObject} (h : Alike json json') :
    base? json' = base? json := by
  have hv : Table.value? json' "base" = Table.value? json "base" := h "base" (by decide)
  rw [base?, base?, hv]

theorem SameBlocks.has (h : SameBlocks declared declared') (id : String) :
    declared'.has id = declared.has id := by
  obtain ⟨hd, hd'⟩ | ⟨_, _, hd, hd', -⟩ := Result.rel_cases (h id)
  · rw [Table.has, Table.has, hd, hd']
  · rw [Table.has, Table.has, hd, hd']
    rfl

theorem SameBlocks.value?_eq_none (h : SameBlocks declared declared') (id : String) :
    declared'.value? id = none ↔ declared.value? id = none := by
  obtain ⟨hd, hd'⟩ | ⟨_, _, hd, hd', -⟩ := Result.rel_cases (h id)
  · simp [hd, hd']
  · simp [hd, hd']

theorem SameBlocks.exists_value? (h : SameBlocks declared declared') {id : String}
    {json : JsonObject} (hv : declared.value? id = some json) :
    ∃ json', declared'.value? id = some json' ∧ Alike json json' := by
  obtain ⟨hd, -⟩ | ⟨json, json', hd, hd', halike⟩ := Result.rel_cases (h id)
  · cases hv.symm.trans hd
  · cases hv.symm.trans hd
    exact ⟨json', hd', halike⟩

theorem SameBlocks.without (h : SameBlocks declared declared') (id : String) :
    SameBlocks (declared.without id) (declared'.without id) := by
  intro i
  rw [Table.value?_without, Table.value?_without]
  split
  · exact .none
  · exact h i

/-- What a call does for a declaration that remains. -/
theorem resolveInto_of_value? {entered : List String} {t : Table String α} {id : String}
    {json : JsonObject} (hhas : ¬ t.has id = true) (hent : ¬ entered.contains id = true)
    (hv : remaining.value? id = some json) :
    resolveInto declared remaining entered t id =
      match base? json with
      | none      => do return t.assign id (← override initial json)
      | some base =>
        if declared.has base then do
          let u ← resolveInto declared (remaining.without id) (entered ++ [id]) t base
          return u.assign id (← override ((u.value? base).getD initial) json)
        else .error (.missingStateBlock (category α) base s!"{category α} state '{id}'") := by
  rw [resolveInto, if_neg hhas, if_neg hent]
  split
  · next hnone =>
      rw [hv] at hnone
      cases hnone
  · next json' hv' =>
      obtain rfl := Option.some.inj (hv.symm.trans hv')
      rfl

/-- Blocks are resolved alike from alike declarations, if these change a block alike. -/
theorem resolveInto_congr
    (hover : ∀ (b : α) json json', Alike json json' → override b json' = override b json)
    (hd : SameBlocks declared declared') (hr : SameBlocks remaining remaining')
    (entered : List String) (t : Table String α) (id : String) :
    resolveInto declared' remaining' entered t id =
      resolveInto declared remaining entered t id := by
  fun_induction resolveInto declared remaining entered t id generalizing remaining' with
  | case1 remaining entered id hhas => rw [resolveInto, if_pos hhas]
  | case2 remaining entered id hhas hent => rw [resolveInto, if_neg hhas, if_pos hent]
  | case3 remaining entered id hhas hent hrem =>
      have hrem' := (hr.value?_eq_none id).2 hrem
      rw [resolveInto, if_neg hhas, if_neg hent]
      split
      · rfl
      · next json' hsome =>
          rw [hrem'] at hsome
          cases hsome
  | case4 remaining entered id hhas hent json hrem hbase =>
      obtain ⟨json', hrem', halike⟩ := hr.exists_value? hrem
      rw [resolveInto_of_value? hhas hent hrem', base?_congr halike, hbase]
      simp only [hover initial _ _ halike]
  | case5 remaining entered id hhas hent json hrem base hbase hdecl _ ih =>
      obtain ⟨json', hrem', halike⟩ := hr.exists_value? hrem
      rw [← hd.has] at hdecl
      rw [resolveInto_of_value? hhas hent hrem', base?_congr halike, hbase]
      simp only [if_pos hdecl, ih (hr.without id), hover _ _ _ halike]
  | case6 remaining entered id hhas hent json hrem base hbase hdecl =>
      obtain ⟨json', hrem', halike⟩ := hr.exists_value? hrem
      rw [← hd.has] at hdecl
      rw [resolveInto_of_value? hhas hent hrem', base?_congr halike, hbase]
      simp only [if_neg hdecl]

variable {ds ds' : List StateDeclaration}

theorem sameBlocks_ofPairs (h : Table.Related (fun _ => Alike) ds ds') :
    SameBlocks (Table.ofPairs ds) (Table.ofPairs ds') := by
  intro id
  rw [Table.value?_ofPairs, Table.value?_ofPairs]
  exact h.reverse.value? id

theorem resolveAll_congr
    (hover : ∀ (b : α) json json', Alike json json' → override b json' = override b json)
    (h : Table.Related (fun _ => Alike) ds ds') : resolveAll α ds' = resolveAll α ds := by
  have hsame := sameBlocks_ofPairs h
  have hstep : resolveInto (α := α) (Table.ofPairs ds') (Table.ofPairs ds') [] =
      resolveInto (Table.ofPairs ds) (Table.ofPairs ds) [] := by
    funext t id
    exact resolveInto_congr hover hsame hsame [] t id
  have hids : ds'.map Prod.fst = ds.map Prod.fst := h.keys
  simp only [resolveAll, hids, hstep]

end StateBlock

/-! ### Categories -/

namespace StateDeclaration

/-- The keyed entries of a category and the items of its list declare the same blocks. -/
theorem exists_list_of_isObject {es : List (String × Json)} (h : ∀ e ∈ es, e.2.isObject = true)
    (key : String) : ∃ ds ds', es.mapM (ofEntry key) = .ok ds ∧
      (es.map (Json.item "id")).mapM (ofItem key) = .ok ds' ∧
      Table.Related (fun _ => StateBlock.Alike) ds ds' := by
  induction es with
  | nil => exact ⟨[], [], rfl, rfl, .nil⟩
  | cons e es ih =>
      obtain ⟨ds, ds', hds, hds', hrel⟩ := ih fun e' he' => h e' (List.mem_cons_of_mem e he')
      obtain ⟨id, v⟩ := e
      have hv : v.isObject = true := h (id, v) List.mem_cons_self
      obtain ⟨json, rfl⟩ := Json.exists_object hv
      have hitem : ofItem key (Json.item "id" (id, .object json)) =
          .ok (id, json.assign "id" (.text id)) := by
        have hid := Json.textField?_withField hv "id" id
        simp only [ofItem, Json.item, hid]
        rfl
      refine ⟨(id, json) :: ds, (id, json.assign "id" (.text id)) :: ds', ?_, ?_, ?_⟩
      · rw [List.mapM_cons, hds]
        rfl
      · rw [List.map_cons, List.mapM_cons, hitem, hds']
        rfl
      · exact .cons ⟨rfl, Json.agreeBut_withField (.object json) "id" (.text id)⟩ hrel

end StateDeclaration

/-- A category is read alike from either form. -/
theorem StateBlock.readCategory_congr {states states' : JsonObject}
    (h : Table.Related (fun _ => Listed "id") states states') (c : StateCategory) :
    readCategory c.Block states' c = readCategory c.Block states c := by
  unfold readCategory StateDeclaration.list
  obtain ⟨hs, hs'⟩ | ⟨v, v', hs, hs', hv⟩ := Result.rel_cases (h.value? c.key)
  · rw [hs, hs']
  · rw [hs, hs']
    cases hv with
    | same => rfl
    | items hes =>
        obtain ⟨ds, ds', hds, hds', hrel⟩ := StateDeclaration.exists_list_of_isObject hes c.key
        dsimp only
        rw [hds, hds', Result.ok_bind, Result.ok_bind]
        exact resolveAll_congr (fun b _ _ halike => c.override_congr halike b) hrel

/-- A registry is read alike from categories in either form. -/
theorem StateRegistry.read_congr {states states' : Option JsonObject}
    (h : Table.Related (fun _ => Listed "id") (states.getD []) (states'.getD [])) :
    read states' = read states := by
  have hr : StateBlock.readCategory RasterizerState (states'.getD []) .rasterizer = _ :=
    StateBlock.readCategory_congr h .rasterizer
  have hd : StateBlock.readCategory DepthStencilState (states'.getD []) .depthStencil = _ :=
    StateBlock.readCategory_congr h .depthStencil
  have hb : StateBlock.readCategory BlendState (states'.getD []) .blend = _ :=
    StateBlock.readCategory_congr h .blend
  have ht : StateBlock.readCategory RenderTargetState (states'.getD []) .renderTarget = _ :=
    StateBlock.readCategory_congr h .renderTarget
  have hf : StateBlock.readCategory VertexFormat (states'.getD []) .vertexFormat = _ :=
    StateBlock.readCategory_congr h .vertexFormat
  simp only [read, hr, hd, hb, ht, hf]
  rfl

end RenderMaterials
