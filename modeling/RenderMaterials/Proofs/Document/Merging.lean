import RenderMaterials.Proofs.Document.Loading
import RenderMaterials.Proofs.Json.Objects
import Mathlib.Data.List.DropRight

/-!
# Merging — what the values of a key come to

Objects that are merged in turn give each key its values one after the other.  The last value
decides what they come to: of arrays that stand at the end without a break it is the concatenation,
of such objects the union, and of anything else the last value alone.

* `JsonObject.UnionOf`: the fields of several objects in one.
* `Combined`: what the values of a key come to; `Combined.merge`: one more value.
* `value?_foldl_merge`: objects that are merged in turn merge the values of each key in turn.
* `merged_closed_form`: the keys of the merged object and their values.
* `Loaded.exists_combined`: so it is with every document that is loaded.
-/

namespace RenderMaterials

/-! ### Unions -/

namespace JsonObject

/-- The fields of several objects in one: the keys in order of first occurrence, and of each the
last value. -/
structure UnionOf (os : List JsonObject) (u : JsonObject) : Prop where
  keys  : u.keys = (os.flatMap Table.keys).eraseDups
  value : ∀ key, u.value? key = (os.filterMap (·.value? key)).getLast?

theorem UnionOf.single {o : JsonObject} (h : o.keys.Nodup) : UnionOf [o] o := by
  refine ⟨?_, fun key => ?_⟩
  · rw [List.flatMap_singleton, Table.eraseDups_of_nodup h]
  · cases hv : o.value? key <;> simp [hv]

/-- One more object is united with those of before. -/
theorem UnionOf.snoc {os : List JsonObject} {u o : JsonObject} (h : UnionOf os u)
    (ho : o.keys.Nodup) : UnionOf (os ++ [o]) (union u o) := by
  refine ⟨?_, fun key => ?_⟩
  · rw [union, Table.keys_foldl_assign h.keys, List.flatMap_append, List.flatMap_singleton]
  · have hlast : Table.value? o.reverse key = o.value? key :=
      (Table.value?_perm (List.reverse_perm o).symm ho key).symm
    rw [union, Table.value?_foldl_assign, hlast, h.value, List.filterMap_append]
    cases hv : o.value? key <;> simp [hv]

end JsonObject

namespace Document

variable {vs : List Json} {r v : Json} {key : String}

/-! ### Values of one key -/

/-- The values at the end of a list that are of one kind, without a break. -/
def lastRun {α : Type} (kind : Json → Option α) (vs : List Json) : List α :=
  (vs.rtakeWhile fun v => (kind v).isSome).filterMap kind

theorem lastRun_concat {α : Type} (kind : Json → Option α) (vs : List Json) (v : Json) :
    lastRun kind (vs ++ [v]) = match kind v with
      | some a => lastRun kind vs ++ [a]
      | none   => [] := by
  unfold lastRun
  cases hv : kind v with
  | none => rw [List.rtakeWhile_concat_neg _ _ _ (by simp [hv]), List.filterMap_nil]
  | some a =>
      rw [List.rtakeWhile_concat_pos _ _ _ (by simp [hv]), List.filterMap_append]
      simp [hv]

/-- Values that are not two arrays, and not two objects, are not put together. -/
theorem mergeValue_alone (ha : r.array? = none ∨ v.array? = none)
    (ho : r.object? = none ∨ v.object? = none) : mergeValue (some r) v = v := by
  unfold mergeValue
  split
  · next xs ys he =>
      cases he
      rcases ha with ha | ha <;> cases ha
  · next xs ys he =>
      cases he
      rcases ho with ho | ho <;> cases ho
  · rfl

/-- What the values of a key come to: the arrays at the end put one after the other, the union of
the objects at the end, or the last value alone. -/
inductive Combined : List Json → Json → Prop
  | arrays {vs : List Json} {ys : List Json} :
      Combined (vs ++ [.array ys]) (.array (lastRun Json.array? (vs ++ [.array ys])).flatten)
  | objects {vs : List Json} {o u : JsonObject} :
      JsonObject.UnionOf (lastRun Json.object? (vs ++ [.object o])) u →
      Combined (vs ++ [.object o]) (.object u)
  | other {vs : List Json} {v : Json} :
      v.array? = none → v.object? = none → Combined (vs ++ [v]) v

namespace Combined

/-- What is an array comes from the arrays at the end, and of anything else there are none. -/
theorem arrays_at_end (h : Combined vs r) :
    r = .array (lastRun Json.array? vs).flatten ∨ r.array? = none ∧ lastRun Json.array? vs = [] := by
  cases h with
  | arrays => exact .inl rfl
  | objects => exact .inr ⟨rfl, lastRun_concat ..⟩
  | other ha _ => exact .inr ⟨ha, by rw [lastRun_concat, ha]⟩

/-- What is an object comes from the objects at the end, and of anything else there are none. -/
theorem objects_at_end (h : Combined vs r) :
    (∃ u, r = .object u ∧ JsonObject.UnionOf (lastRun Json.object? vs) u) ∨
      r.object? = none ∧ lastRun Json.object? vs = [] := by
  cases h with
  | arrays => exact .inr ⟨rfl, lastRun_concat ..⟩
  | objects hu => exact .inl ⟨_, rfl, hu⟩
  | other _ ho => exact .inr ⟨ho, by rw [lastRun_concat, ho]⟩

/-- An array comes after a value that is no array, or after none. -/
theorem array_alone {ys : List Json} (h : lastRun Json.array? vs = []) :
    Combined (vs ++ [.array ys]) (.array ys) := by
  have hrun : lastRun Json.array? (vs ++ [.array ys]) = [ys] := by
    rw [lastRun_concat, h]
    rfl
  simpa [hrun] using @arrays vs ys

/-- An object comes after a value that is no object, or after none. -/
theorem object_alone {o : JsonObject} (h : lastRun Json.object? vs = []) (ho : o.keys.Nodup) :
    Combined (vs ++ [.object o]) (.object o) := by
  refine objects ?_
  rw [lastRun_concat, h]
  exact .single ho

/-- One value comes to itself. -/
theorem first (hv : ∀ o, v = .object o → (Table.keys o).Nodup) : Combined [v] v := by
  cases v with
  | array ys => exact @array_alone [] ys rfl
  | object o => exact @object_alone [] o rfl (hv o rfl)
  | _ => exact @other [] _ rfl rfl

/-- One more value is merged into what those of before come to. -/
theorem merge (h : Combined vs r) (hv : ∀ o, v = .object o → (Table.keys o).Nodup) :
    Combined (vs ++ [v]) (mergeValue (some r) v) := by
  cases v with
  | array ys =>
      obtain rfl | ⟨hr, hrun⟩ := h.arrays_at_end
      · -- the arrays go on
        have hrun : lastRun Json.array? (vs ++ [.array ys]) = lastRun Json.array? vs ++ [ys] :=
          lastRun_concat ..
        simpa [mergeValue, hrun] using @arrays vs ys
      · rw [mergeValue_alone (.inl hr) (.inr rfl)]
        exact array_alone hrun
  | object o =>
      obtain ⟨u, rfl, hu⟩ | ⟨hr, hrun⟩ := h.objects_at_end
      · -- the objects go on
        refine objects ?_
        rw [lastRun_concat]
        exact hu.snoc (hv o rfl)
      · rw [mergeValue_alone (.inr rfl) (.inl hr)]
        exact object_alone hrun (hv o rfl)
  | _ =>
      rw [mergeValue_alone (.inr rfl) (.inr rfl)]
      exact other rfl rfl

end Combined

/-! ### Merging objects -/

/-- The values that objects give a key, in the order of the objects. -/
def valuesOf (key : String) (objects : List JsonObject) : List Json :=
  objects.filterMap (·.value? key)

/-- What a key that has a value, or has none, comes to with one more value. -/
def mergeNext (earlier : Option Json) (v : Json) : Option Json := some (mergeValue earlier v)

theorem value?_mergeField (t : JsonObject) (e : String × Json) (hkey : key ≠ includesKey) :
    (mergeField t e).value? key =
      if e.1 = key then mergeNext (t.value? key) e.2 else t.value? key := by
  unfold mergeField mergeNext
  by_cases he : e.1 = key
  · rw [he, if_neg hkey, if_pos rfl, Table.value?_assign_same]
  · rw [if_neg he]
    split
    · rfl
    · exact Table.value?_assign_other _ _ he

/-- An object merges its value of a key. -/
theorem value?_merge (t : JsonObject) {o : JsonObject} (ho : o.keys.Nodup)
    (hkey : key ≠ includesKey) :
    (merge t o).value? key = (o.value? key).toList.foldl mergeNext (t.value? key) := by
  unfold merge
  induction o generalizing t with
  | nil => rfl
  | cons e o ih =>
      obtain ⟨hnew, hnodup⟩ := List.nodup_cons.1 ho
      rw [List.foldl_cons, ih _ hnodup, value?_mergeField t e hkey]
      by_cases he : e.1 = key
      · -- no other field has the key
        have hnone : Table.value? o key = none := by
          rw [← Option.not_isSome_iff_eq_none]
          exact fun hs => hnew (he ▸ (Table.mem_keys_iff o key).2 hs)
        simp [Table.value?, he, hnone]
      · simp [Table.value?, he]

/-- Objects that are merged in turn merge the values of each key in turn. -/
theorem value?_foldl_merge {objects : List JsonObject} (h : ∀ o ∈ objects, o.keys.Nodup)
    (t : JsonObject) (hkey : key ≠ includesKey) :
    (objects.foldl merge t).value? key =
      (valuesOf key objects).foldl mergeNext (t.value? key) := by
  induction objects generalizing t with
  | nil => rfl
  | cons o objects ih =>
      rw [List.foldl_cons, ih (fun o' ho' => h o' (by simp [ho'])),
        value?_merge t (h o (by simp)) hkey]
      unfold valuesOf
      cases hv : o.value? key <;> simp [hv]

/-- Values that are merged in turn come to what they are combined to. -/
theorem exists_combined (hne : vs ≠ []) (hvs : ∀ o, .object o ∈ vs → (Table.keys o).Nodup) :
    ∃ r, vs.foldl mergeNext none = some r ∧ Combined vs r := by
  induction vs using List.reverseRecOn with
  | nil => exact absurd rfl hne
  | append_singleton vs v ih =>
      have hv : ∀ o, v = .object o → (Table.keys o).Nodup := fun o ho => hvs o (by simp [ho])
      rw [List.foldl_append, List.foldl_cons, List.foldl_nil]
      by_cases hnil : vs = []
      · subst hnil
        exact ⟨v, rfl, .first hv⟩
      · obtain ⟨r, hr, hc⟩ := ih hnil fun o ho => hvs o (by simp [ho])
        exact ⟨_, by rw [hr, mergeNext], hc.merge hv⟩

/-! ### Keys -/

theorem keys_mergeField {t : JsonObject} {ks : List String}
    (h : t.keys = (ks.filter (· ≠ includesKey)).eraseDups) (e : String × Json) :
    (mergeField t e).keys = ((ks ++ [e.1]).filter (· ≠ includesKey)).eraseDups := by
  unfold mergeField
  split
  · next he => simp [h, he, List.filter_append]
  · next he =>
      rw [List.filter_append, Table.keys_assign_of_keys h]
      simp [he]

theorem keys_merge {t : JsonObject} {ks : List String}
    (h : t.keys = (ks.filter (· ≠ includesKey)).eraseDups) (o : JsonObject) :
    (merge t o).keys = ((ks ++ o.keys).filter (· ≠ includesKey)).eraseDups := by
  unfold merge
  induction o generalizing t ks with
  | nil => simpa [Table.keys] using h
  | cons e o ih =>
      rw [List.foldl_cons, ih (keys_mergeField h e), List.append_assoc]
      rfl

theorem keys_foldl_merge {t : JsonObject} {ks : List String}
    (h : t.keys = (ks.filter (· ≠ includesKey)).eraseDups) (objects : List JsonObject) :
    (objects.foldl merge t).keys =
      ((ks ++ objects.flatMap Table.keys).filter (· ≠ includesKey)).eraseDups := by
  induction objects generalizing t ks with
  | nil => simpa using h
  | cons o objects ih =>
      rw [List.foldl_cons, ih (keys_merge h o), List.append_assoc]
      rfl

/-! ### The merged object -/

theorem lastRun_arrays (xss : List (List Json)) : lastRun Json.array? (xss.map .array) = xss := by
  induction xss using List.reverseRecOn with
  | nil => rfl
  | append_singleton xss xs ih =>
      rw [List.map_append, List.map_singleton, lastRun_concat]
      simp [Json.array?, ih]

/-- Arrays come to all their items. -/
theorem Combined.of_arrays {xss : List (List Json)} (h : Combined (xss.map .array) r)
    (hne : xss ≠ []) : r = .array xss.flatten := by
  obtain rfl | ⟨-, hrun⟩ := h.arrays_at_end
  · rw [lastRun_arrays]
  · exact absurd ((lastRun_arrays xss).symm.trans hrun) hne

theorem keys_merged (objects : List JsonObject) : (objects.foldl merge []).keys =
    ((objects.flatMap Table.keys).filter (· ≠ includesKey)).eraseDups :=
  @keys_foldl_merge [] [] rfl objects

theorem ne_includesKey_of_mem {objects : List JsonObject}
    (h : key ∈ (objects.foldl merge []).keys) : key ≠ includesKey := by
  rw [keys_merged, List.mem_eraseDups] at h
  simpa using (List.mem_filter.1 h).2

/-- A key of the merged object stands for what its values are combined to. -/
theorem exists_combined_of_mem {objects : List JsonObject} (h : ∀ o ∈ objects, o.Proper)
    (hkey : key ∈ (objects.foldl merge []).keys) : valuesOf key objects ≠ [] ∧
      ∃ r, (objects.foldl merge []).value? key = some r ∧ Combined (valuesOf key objects) r := by
  have hvalue := value?_foldl_merge (fun o ho => (h o ho).nodup) [] (ne_includesKey_of_mem hkey)
  have hne : valuesOf key objects ≠ [] := fun hnil => by
    rw [hnil] at hvalue
    rw [Table.mem_keys_iff, Table.has, hvalue] at hkey
    cases hkey
  have hinner : ∀ o, .object o ∈ valuesOf key objects → (Table.keys o).Nodup := fun o ho => by
    obtain ⟨o', ho', hv⟩ := List.mem_filterMap.1 ho
    exact (h o' ho').inner key o (Table.mem_of_value? hv)
  obtain ⟨r, hr, hc⟩ := exists_combined hne hinner
  exact ⟨hne, r, hvalue.trans hr, hc⟩

/-- Objects that are merged in turn, into nothing at first, give an object with their keys, each at
its first place and without that of includes.  A key stands for what its values are combined to; if
all of them are arrays, for all items in their order. -/
theorem merged_closed_form {objects : List JsonObject} (h : ∀ o ∈ objects, o.Proper) :
    includesKey ∉ (objects.foldl merge []).keys ∧
    (objects.foldl merge []).keys =
      ((objects.flatMap Table.keys).filter (· ≠ includesKey)).eraseDups ∧
    ∀ key ∈ (objects.foldl merge []).keys,
      (∃ r, (objects.foldl merge []).value? key = some r ∧ Combined (valuesOf key objects) r) ∧
      ∀ xss : List (List Json), valuesOf key objects = xss.map .array →
        (objects.foldl merge []).value? key = some (.array xss.flatten) := by
  refine ⟨fun hk => ne_includesKey_of_mem hk rfl, keys_merged objects, fun key hk => ?_⟩
  obtain ⟨hne, r, hr, hc⟩ := exists_combined_of_mem h hk
  refine ⟨⟨r, hr, hc⟩, fun xss hxss => ?_⟩
  rw [hxss] at hc hne
  rw [hr, hc.of_arrays fun hnil => hne (by rw [hnil]; rfl)]

/-! ### Three objects -/

namespace ThreeObjects

/-- A key with arrays only, one with values of several kinds, and one with objects. -/
def objects : List JsonObject :=
  [[("items", .array [.text "a"]), ("mixed", .array [.text "b"]), ("named", .object [("k", .null)])],
   [("includes", .array []), ("mixed", .bool true), ("items", .array [])],
   [("mixed", .array [.text "c"]), ("items", .array [.text "d", .text "a"]),
    ("named", .object [("l", .null), ("k", .bool true)])]]

theorem proper : ∀ o ∈ objects, o.Proper := by
  intro o ho
  simp only [objects, List.mem_cons, List.not_mem_nil, or_false] at ho
  rcases ho with rfl | rfl | rfl
  · refine ⟨by decide, fun key fields hmem => ?_⟩
    obtain ⟨-, rfl⟩ : key = "named" ∧ fields = [("k", .null)] := by simpa using hmem
    decide
  · exact ⟨by decide, fun key fields hmem => by simp at hmem⟩
  · refine ⟨by decide, fun key fields hmem => ?_⟩
    obtain ⟨-, rfl⟩ : key = "named" ∧ fields = [("l", .null), ("k", .bool true)] := by
      simpa using hmem
    decide

/-- The keys keep their first places, and no item is lost. -/
theorem three_objects_merged : (∀ o ∈ objects, o.Proper) ∧
    (objects.foldl merge []).keys = ["items", "mixed", "named"] ∧
    (objects.foldl merge []).value? "items" =
      some (.array [.text "a", .text "d", .text "a"]) := by
  obtain ⟨-, hkeys, hvalues⟩ := merged_closed_form proper
  have hkeys' : (objects.foldl merge []).keys = ["items", "mixed", "named"] := hkeys
  exact ⟨proper, hkeys',
    (hvalues "items" (hkeys' ▸ by simp)).2 [[.text "a"], [], [.text "d", .text "a"]] rfl⟩

end ThreeObjects

/-! ### Loaded documents -/

theorem Content.proper {m : MemorySource} {path : String} {content : JsonObject}
    (h : Content m path content) : content.Proper := by
  obtain ⟨fields, ⟨data, text, -, -, hread⟩, rfl⟩ := h
  exact (Json.proper_of_read hread).swapRemove includesKey

/-- Each key of a document that is loaded stands for what the values in its files are combined
to. -/
theorem Loaded.exists_combined {m : MemorySource} {path : String} {d : Document}
    (h : Loaded m path d) : ∃ contents, List.Forall₂ (Content m) d.files contents ∧
      ∀ key ∈ d.root.keys, ∃ r, d.root.value? key = some r ∧
        Combined (valuesOf key contents) r := by
  obtain ⟨contents, hc, hroot⟩ := h.root
  refine ⟨contents, hc, fun key hk => ?_⟩
  rw [hroot] at hk ⊢
  refine (exists_combined_of_mem (fun o ho => ?_) hk).2
  obtain ⟨p, -, hp⟩ := Result.exists_left_of_mem hc ho
  exact hp.proper

end Document

end RenderMaterials
