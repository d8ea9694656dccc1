import Mathlib.Data.Finset.Card
import Mathlib.Data.Fintype.Basic
import RenderMaterials.Proofs.System.Distinct

/-!
# Checking documents — what is reported as repeated

All ids of a document share one namespace.  Read section by section, category by category, they form
one list, and the check for repeated ids reports those entries of the list whose id stands in an
earlier entry, whatever the two are declared as.

* `Enumerates`: a list of what stands at places, in the order of the places.
* `Document.DeclaresAt`: what a document declares, as what, and where;
  `Document.enumerates_declarations`: the list has that and nothing else, in the order of places.
* `Document.again`: the positions whose id stands at an earlier one.
* `Document.repeated_eq`, `Document.length_repeated`: the check, with ids that were seen before.
* `Document.duplicates_exact`: it reports the entries at those positions, in order; so it reports
  nothing exactly when all ids are distinct.
-/

namespace RenderMaterials

/-! ### Lists in the order of places -/

/-- A list is what stands at places: each thing once for each of its places, in their order. -/
def Enumerates {ι α : Type} (before : ι → ι → Prop) (stands : ι → α → Prop) (as : List α) : Prop :=
  ∃ ps : List (ι × α), ps.map Prod.snd = as ∧ (∀ i a, (i, a) ∈ ps ↔ stands i a) ∧
    ps.Pairwise fun x y => before x.1 y.1

namespace Enumerates

variable {ι κ α β γ : Type} {before : ι → ι → Prop} {stands stands' : ι → α → Prop}
  {as bs : List α}

theorem mem_iff (h : Enumerates before stands as) {a : α} : a ∈ as ↔ ∃ i, stands i a := by
  obtain ⟨ps, rfl, hmem, -⟩ := h
  simp [hmem]

theorem congr (h : Enumerates before stands as) (hs : ∀ i a, stands i a ↔ stands' i a) :
    Enumerates before stands' as := by
  obtain ⟨ps, hps, hmem, hpair⟩ := h
  exact ⟨ps, hps, fun i a => (hmem i a).trans (hs i a), hpair⟩

/-- Things that are renamed stand where they stood. -/
theorem map (f : α → β) (h : Enumerates before stands as) :
    Enumerates before (fun i b => ∃ a, stands i a ∧ f a = b) (as.map f) := by
  obtain ⟨ps, rfl, hmem, hpair⟩ := h
  refine ⟨ps.map fun x => (x.1, f x.2), by simp, fun i b => ?_, List.pairwise_map.2 hpair⟩
  simp only [List.mem_map, Prod.mk.injEq, Prod.exists, hmem]
  constructor
  · rintro ⟨i, a, ha, rfl, rfl⟩
    exact ⟨a, ha, rfl⟩
  · rintro ⟨a, ha, rfl⟩
    exact ⟨i, a, ha, rfl, rfl⟩

/-- A list stands in front of another when its places do. -/
theorem append (h : Enumerates before stands as) (h' : Enumerates before stands' bs)
    (hbefore : ∀ i a j b, stands i a → stands' j b → before i j) :
    Enumerates before (fun i a => stands i a ∨ stands' i a) (as ++ bs) := by
  obtain ⟨ps, rfl, hmem, hpair⟩ := h
  obtain ⟨qs, rfl, hmem', hpair'⟩ := h'
  refine ⟨ps ++ qs, by simp, fun i a => by rw [List.mem_append, hmem, hmem'], ?_⟩
  refine List.pairwise_append.2 ⟨hpair, hpair', fun x hx y hy => ?_⟩
  exact hbefore _ _ _ _ ((hmem _ _).1 hx) ((hmem' _ _).1 hy)

theorem pairwise_zipIdx (bs : List β) : bs.zipIdx.Pairwise fun x y => x.2 < y.2 := by
  rw [← List.pairwise_map, List.zipIdx_map_snd]
  exact List.pairwise_lt_range'

/-- What is left of a list stands where it stood in the list. -/
theorem filterMap (f : β → Option α) (bs : List β) :
    Enumerates (· < ·) (fun (i : Nat) a => ∃ b, bs[i]? = some b ∧ f b = some a)
      (bs.filterMap f) := by
  refine ⟨bs.zipIdx.filterMap fun x => (f x.1).map (x.2, ·), ?_, fun i a => ?_, ?_⟩
  · have hfst : (fun x : β × Nat => f x.1) = f ∘ Prod.fst := rfl
    simp only [List.map_filterMap, Option.map_map, Function.comp_def, Option.map_id']
    rw [hfst, ← List.filterMap_map, List.zipIdx_map_fst]
  · simp only [List.mem_filterMap, Prod.exists, List.mem_zipIdx_iff_getElem?,
      Option.map_eq_some_iff, Prod.mk.injEq]
    constructor
    · rintro ⟨b, j, hb, a, ha, rfl, rfl⟩
      exact ⟨b, hb, ha⟩
    · rintro ⟨b, hb, ha⟩
      exact ⟨b, i, hb, a, ha, rfl, rfl⟩
  · refine List.Pairwise.filterMap _ (fun x y hxy p hp q hq => ?_) (pairwise_zipIdx bs)
    obtain ⟨a, -, rfl⟩ := Option.map_eq_some_iff.1 hp
    obtain ⟨b, -, rfl⟩ := Option.map_eq_some_iff.1 hq
    exact hxy

/-- Lists that are put together in a row: a place is one of the row and one in the list there. -/
theorem flatMap {after : κ → κ → Prop} (place : Nat → ι → κ) {list : γ → List α}
    {held : γ → ι → α → Prop} (h : ∀ c, Enumerates before (held c) (list c))
    (hin : ∀ n i j, before i j → after (place n i) (place n j))
    (hrow : ∀ m n i j, m < n → after (place m i) (place n j)) (cs : List γ) :
    Enumerates after (fun k a => ∃ n c i, cs[n]? = some c ∧ place n i = k ∧ held c i a)
      (cs.flatMap list) := by
  choose ps hps hmem hpair using h
  refine ⟨cs.zipIdx.flatMap fun x => (ps x.1).map fun y => (place x.2 y.1, y.2), ?_,
    fun k a => ?_, ?_⟩
  · have hlist : ∀ x : γ × Nat, ((ps x.1).map fun y => (place x.2 y.1, y.2)).map Prod.snd =
        list x.1 := fun x => by
      rw [List.map_map, ← hps x.1]
      rfl
    rw [List.map_flatMap]
    simp only [hlist]
    rw [← List.flatMap_map, List.zipIdx_map_fst]
  · simp only [List.mem_flatMap, Prod.exists, List.mem_zipIdx_iff_getElem?, List.mem_map, hmem,
      Prod.mk.injEq]
    constructor
    · rintro ⟨c, n, hc, i, a, ha, rfl, rfl⟩
      exact ⟨n, c, i, hc, rfl, ha⟩
    · rintro ⟨n, c, i, hc, rfl, ha⟩
      exact ⟨c, n, hc, i, a, ha, rfl, rfl⟩
  · refine List.pairwise_flatMap.2 ⟨fun x _ => ?_, (pairwise_zipIdx cs).imp fun hxy => ?_⟩
    · exact List.pairwise_map.2 ((hpair x.1).imp fun hlt => hin _ _ _ hlt)
    · intro y hy z hz
      obtain ⟨_, -, rfl⟩ := List.mem_map.1 hy
      obtain ⟨_, -, rfl⟩ := List.mem_map.1 hz
      exact hrow _ _ _ _ hxy

end Enumerates

namespace Document

/-! ### What is declared -/

/-- A place of a document: a section, a category of the section, and an entry of the category.  The
sections are the materials, the render passes, the states and the shaders. -/
structure Place where
  part     : Nat
  category : Nat
  entry    : Nat

/-- Places are in order by section, then by category, then by entry. -/
def Place.Before (p q : Place) : Prop :=
  p.part < q.part ∨ p.part = q.part ∧
    (p.category < q.category ∨ p.category = q.category ∧ p.entry < q.entry)

/-- Categories of a section in a row: what stands in each of them stands in the section. -/
theorem enumerates_section {α γ : Type} (part : Nat) {list : γ → List α}
    {held : γ → Nat → α → Prop} (h : ∀ c, Enumerates (· < ·) (held c) (list c)) (cs : List γ) :
    Enumerates Place.Before (fun p a => ∃ n c i, cs[n]? = some c ∧ ⟨part, n, i⟩ = p ∧ held c i a)
      (cs.flatMap list) := by
  refine Enumerates.flatMap (fun n i => (⟨part, n, i⟩ : Place)) h ?_ ?_ cs
  · intro n i j hij
    exact .inr ⟨rfl, .inr ⟨rfl, hij⟩⟩
  · intro m n i j hmn
    exact .inr ⟨rfl, .inl hmn⟩

/-- An id of a category, as the key of an entry or in a field of it. -/
inductive CategoryId : Json → Nat → String → Prop
  | key {es : List (String × Json)} {i : Nat} {id : String} {v : Json}
      (h : es[i]? = some (id, v)) : CategoryId (.object es) i id
  | item {items : List Json} {i : Nat} {id : String} {v : Json} (h : items[i]? = some v)
      (hid : v.textField? "id" = some id) : CategoryId (.array items) i id

/-- A document declares an id as something at a place. -/
inductive DeclaresAt (d : Document) : Place → DuplicateId → Prop
  | material {i : Nat} {v : Json} {id : String} (h : d.materials[i]? = some v)
      (hid : v.textField? "id" = some id) : DeclaresAt d ⟨0, 0, i⟩ ⟨id, "materials"⟩
  | renderPass {i : Nat} {v : Json} {id : String} (h : d.renderPasses[i]? = some v)
      (hid : v.textField? "name" = some id) : DeclaresAt d ⟨1, 0, i⟩ ⟨id, "renderPasses"⟩
  | state {categories : JsonObject} {c i : Nat} {category id : String} {v : Json}
      (hs : d.states? = some categories) (h : categories[c]? = some (category, v))
      (hid : CategoryId v i id) : DeclaresAt d ⟨2, c, i⟩ ⟨id, s!"states.{category}"⟩
  | shader {categories : JsonObject} {c i : Nat} {category id : String} {v : Json}
      (hs : d.shaders? = some categories) (h : categories[c]? = some (category, v))
      (hid : CategoryId v i id) : DeclaresAt d ⟨3, c, i⟩ ⟨id, s!"shaders.{category}"⟩

/-- A document declares an id as something. -/
def Declares (d : Document) (e : DuplicateId) : Prop := ∃ p, d.DeclaresAt p e

theorem enumerates_declaredIds (v : Json) :
    Enumerates (· < ·) (CategoryId v) (declaredIds v) := by
  have hnone : ∀ {v : Json}, (∀ i id, ¬ CategoryId v i id) →
      Enumerates (· < ·) (CategoryId v) [] := fun h =>
    ⟨[], rfl, fun i id => by simp [h i id], .nil⟩
  cases v with
  | object es =>
      have hkeys : declaredIds (.object es) = es.filterMap fun e => some e.1 := by
        rw [List.filterMap_eq_map']
        rfl
      rw [hkeys]
      refine (Enumerates.filterMap _ es).congr fun i id => ?_
      constructor
      · rintro ⟨⟨id', v⟩, he, hid⟩
        obtain rfl := Option.some.inj hid
        exact .key he
      · rintro ⟨he⟩
        exact ⟨_, he, rfl⟩
  | array items =>
      refine (Enumerates.filterMap _ items).congr fun i id => ?_
      constructor
      · rintro ⟨v, hv, hid⟩
        exact .item hv hid
      · rintro (_ | ⟨hv, hid⟩)
        exact ⟨_, hv, hid⟩
  | null | bool | number | text => exact hnone fun i id h => by cases h

/-- The ids of a section, category by category. -/
theorem enumerates_sectionIds (part : Nat) (label : String) (categories? : Option JsonObject) :
    Enumerates Place.Before (fun p e => ∃ categories c i category v id,
        categories? = some categories ∧ categories[c]? = some (category, v) ∧ CategoryId v i id ∧
        p = ⟨part, c, i⟩ ∧ e = ⟨id, s!"{label}.{category}"⟩)
      (sectionIds label categories?) := by
  have hids : ∀ c : String × Json, Enumerates (· < ·) _
      ((declaredIds c.2).map fun id => (⟨id, s!"{label}.{c.1}"⟩ : DuplicateId)) := fun c =>
    (enumerates_declaredIds c.2).map _
  refine (enumerates_section part hids (categories?.getD [])).congr fun p e => ?_
  constructor
  · rintro ⟨c, ⟨category, v⟩, i, hc, rfl, id, hid, rfl⟩
    cases categories? with
    | none => simp at hc
    | some categories => exact ⟨categories, c, i, category, v, id, rfl, hc, hid, rfl, rfl⟩
  · rintro ⟨categories, c, i, category, v, id, rfl, hc, hid, rfl, rfl⟩
    exact ⟨c, (category, v), i, hc, rfl, id, hid, rfl⟩

/-- The ids of the entries of a section without categories. -/
theorem enumerates_named (part : Nat) (key category : String) (vs : List Json) :
    Enumerates Place.Before (fun p (e : DuplicateId) => ∃ i v id, vs[i]? = some v ∧
        v.textField? key = some id ∧ p = ⟨part, 0, i⟩ ∧ e = ⟨id, category⟩)
      (vs.filterMap fun v => (v.textField? key).map (⟨·, category⟩)) := by
  -- such a section is one category
  have hone : (vs.filterMap fun v => (v.textField? key).map fun id =>
      (⟨id, category⟩ : DuplicateId)) = [vs].flatMap fun vs =>
        vs.filterMap fun v => (v.textField? key).map (⟨·, category⟩) := by simp
  rw [hone]
  refine (enumerates_section part (fun vs => .filterMap _ vs) [vs]).congr fun p e => ?_
  constructor
  · rintro ⟨n, us, i, hn, rfl, v, hv, he⟩
    obtain ⟨rfl, rfl⟩ : n = 0 ∧ vs = us := by simpa [List.getElem?_singleton] using hn
    obtain ⟨id, hid, rfl⟩ := Option.map_eq_some_iff.1 he
    exact ⟨i, v, id, hv, hid, rfl, rfl⟩
  · rintro ⟨i, v, id, hv, hid, rfl, rfl⟩
    exact ⟨0, vs, i, rfl, rfl, v, hv, by rw [hid]; rfl⟩

/-- The list of a document's ids is what the document declares, in the order of the places. -/
theorem enumerates_declarations (d : Document) :
    Enumerates Place.Before d.DeclaresAt d.declarations := by
  have hmaterials := enumerates_named 0 "id" "materials" d.materials
  have hpasses := enumerates_named 1 "name" "renderPasses" d.renderPasses
  have hstates := enumerates_sectionIds 2 "states" d.states?
  have hshaders := enumerates_sectionIds 3 "shaders" d.shaders?
  have htwo := hmaterials.append hpasses fun p _ q _ hp hq => by
    obtain ⟨_, _, _, -, -, rfl, -⟩ := hp
    obtain ⟨_, _, _, -, -, rfl, -⟩ := hq
    exact .inl (by simp)
  have hthree := htwo.append hstates fun p _ q _ hp hq => by
    obtain ⟨_, _, _, _, _, _, -, -, -, rfl, -⟩ := hq
    rcases hp with ⟨_, _, _, -, -, rfl, -⟩ | ⟨_, _, _, -, -, rfl, -⟩
    · exact .inl (by simp)
    · exact .inl (by simp)
  have hfour := hthree.append hshaders fun p _ q _ hp hq => by
    obtain ⟨_, _, _, _, _, _, -, -, -, rfl, -⟩ := hq
    rcases hp with (⟨_, _, _, -, -, rfl, -⟩ | ⟨_, _, _, -, -, rfl, -⟩) |
      ⟨_, _, _, _, _, _, -, -, -, rfl, -⟩
    · exact .inl (by simp)
    · exact .inl (by simp)
    · exact .inl (by simp)
  refine hfour.congr fun p e => ⟨?_, ?_⟩
  · rintro (((⟨i, v, id, hv, hid, rfl, rfl⟩ | ⟨i, v, id, hv, hid, rfl, rfl⟩) |
      ⟨categories, c, i, category, v, id, hs, hc, hid, rfl, rfl⟩) |
      ⟨categories, c, i, category, v, id, hs, hc, hid, rfl, rfl⟩)
    · exact .material hv hid
    · exact .renderPass hv hid
    · exact .state hs hc hid
    · exact .shader hs hc hid
  · rintro (⟨hv, hid⟩ | ⟨hv, hid⟩ | ⟨hs, hc, hid⟩ | ⟨hs, hc, hid⟩)
    · exact .inl (.inl (.inl ⟨_, _, _, hv, hid, rfl, rfl⟩))
    · exact .inl (.inl (.inr ⟨_, _, _, hv, hid, rfl, rfl⟩))
    · exact .inl (.inr ⟨_, _, _, _, _, _, hs, hc, hid, rfl, rfl⟩)
    · exact .inr ⟨_, _, _, _, _, _, hs, hc, hid, rfl, rfl⟩

/-! ### Entries that come again -/

/-- The positions of a list whose id stands at an earlier position. -/
def again (es : List DuplicateId) : List (Fin es.length) :=
  (List.finRange es.length).filter fun i => ∃ j < i, (es.get j).id = (es.get i).id

/-- The id at a position was seen before the list, or stands at an earlier position. -/
def Known (seen : List String) (es : List DuplicateId) (i : Fin es.length) : Prop :=
  (es.get i).id ∈ seen ∨ ∃ j < i, (es.get j).id = (es.get i).id

instance (seen : List String) (es : List DuplicateId) : DecidablePred (Known seen es) :=
  fun i => inferInstanceAs (Decidable (_ ∨ ∃ j < i, _))

theorem known_zero_iff {seen : List String} {e : DuplicateId} {es : List DuplicateId} :
    Known seen (e :: es) (0 : Fin (es.length + 1)) ↔ e.id ∈ seen := by
  simp [Known]

/-- Behind an entry, its id counts as seen. -/
theorem known_succ_iff {seen : List String} {e : DuplicateId} {es : List DuplicateId}
    {i : Fin es.length} : Known seen (e :: es) i.succ ↔ Known (e.id :: seen) es i := by
  simp [Known, Fin.exists_fin_succ, or_assoc, or_left_comm, eq_comm]

/-- An id counts as seen once. -/
theorem known_cons_of_mem {seen : List String} {id : String} (h : id ∈ seen)
    {es : List DuplicateId} {i : Fin es.length} : Known (id :: seen) es i ↔ Known seen es i := by
  have hid : (es.get i).id = id ∨ (es.get i).id ∈ seen ↔ (es.get i).id ∈ seen :=
    or_iff_right_of_imp fun heq => heq ▸ h
  rw [Known, Known, List.mem_cons, hid]

/-- Reported are the entries whose id is known. -/
theorem repeated_eq (seen : List String) (es : List DuplicateId) :
    repeated seen es = ((List.finRange es.length).filter fun i => Known seen es i).map es.get := by
  -- the id of an entry is seen by those behind it, so the induction is for all seen ids
  induction es generalizing seen with
  | nil => rfl
  | cons e es ih =>
      have hpositions : List.finRange (e :: es).length =
          0 :: (List.finRange es.length).map Fin.succ := List.finRange_succ
      have hbehind : (((List.finRange es.length).map Fin.succ).filter fun i =>
          Known seen (e :: es) i).map (e :: es).get = repeated (e.id :: seen) es := by
        rw [ih, List.filter_map, List.map_map]
        congr 1
        exact List.filter_congr fun i _ => decide_eq_decide.2 known_succ_iff
      rw [hpositions]
      by_cases he : e.id ∈ seen
      · have hsame : repeated (e.id :: seen) es = repeated seen es := by
          rw [ih, ih]
          congr 1
          exact List.filter_congr fun i _ => decide_eq_decide.2 (known_cons_of_mem he)
        rw [List.filter_cons_of_pos (by simpa [known_zero_iff] using he), List.map_cons, hbehind,
          hsame, repeated, if_pos (List.contains_iff_mem.2 he)]
        rfl
      · rw [List.filter_cons_of_neg (by simpa [known_zero_iff] using he), hbehind, repeated,
          if_neg (mt List.contains_iff_mem.1 he)]

/-- Every entry is reported, or its id is new and counted. -/
theorem length_repeated (seen : List String) (es : List DuplicateId) :
    (repeated seen es).length + ((es.map (·.id)).toFinset \ seen.toFinset).card = es.length := by
  induction es generalizing seen with
  | nil => simp [repeated]
  | cons e es ih =>
      rw [List.map_cons, List.toFinset_cons, List.length_cons, repeated]
      by_cases he : e.id ∈ seen
      · rw [if_pos (List.contains_iff_mem.2 he), List.length_cons,
          Finset.insert_sdiff_of_mem _ (List.mem_toFinset.2 he), ← ih seen]
        omega
      · have hnew : insert e.id (es.map (·.id)).toFinset \ seen.toFinset =
            insert e.id ((es.map (·.id)).toFinset \ (e.id :: seen).toFinset) := by
          rw [Finset.insert_sdiff_of_notMem _ (mt List.mem_toFinset.1 he), List.toFinset_cons]
          ext id
          by_cases hid : id = e.id <;> simp [hid]
        rw [if_neg (mt List.contains_iff_mem.1 he), hnew, Finset.card_insert_of_notMem (by simp),
          ← ih (e.id :: seen)]
        omega

/-- The list of all that a document declares has it in the order of the places of the document, once
for each of them.  Reported are the entries, in order, whose id stands in an earlier entry of that
list.  So nothing is reported exactly when all ids are distinct; and with the distinct ids the
reported entries are as many as the list has. -/
theorem duplicates_exact (d : Document) :
    (∀ e, e ∈ d.declarations ↔ Declares d e) ∧
    Enumerates Place.Before d.DeclaresAt d.declarations ∧
    d.duplicates = (again d.declarations).map d.declarations.get ∧
    (d.duplicates = [] ↔ (d.declarations.map (·.id)).Nodup) ∧
    d.duplicates.length + (d.declarations.map (·.id)).dedup.length = d.declarations.length := by
  have hplaces := enumerates_declarations d
  refine ⟨fun e => hplaces.mem_iff, hplaces, ?_, ?_, ?_⟩
  · rw [duplicates, repeated_eq, again]
    congr 1
    exact List.filter_congr fun i _ => decide_eq_decide.2 (by simp [Known])
  · simp [duplicates, repeated_eq_nil]
  · rw [← length_repeated [] d.declarations, ← List.card_toFinset]
    simp [duplicates]

/-- The name of a render pass that is a material's id, and a state block of it. -/
example :
    duplicates { root := [
      ("states", .object [("blendStates", .object [("a", .null), ("b", .null)])]),
      ("renderPasses", .array [.object [("name", .text "a")]]),
      ("materials", .array [.object [("id", .text "a")]])] } =
      [⟨"a", "renderPasses"⟩, ⟨"a", "states.blendStates"⟩] := by
  decide

end Document

end RenderMaterials
