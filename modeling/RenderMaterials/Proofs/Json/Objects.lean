import RenderMaterials.Json.Reader
import Mathlib.Data.List.TakeDrop

/-!
# JSON objects — one field for a key

A table may hold several entries of a key.  Objects that come from texts never do: a field whose key
is written again takes the place of the earlier one.

* `JsonObject.Proper`: an object with one field for a key, on its first two levels.
* `Json.proper_of_read`: what is read from a text is proper.
* `JsonObject.Proper.swapRemove`: so it is with a key taken away.
-/

namespace RenderMaterials

namespace Table

variable {κ α : Type} [DecidableEq κ]

theorem nodup_keys_ofPairs (ps : List (κ × α)) : (ofPairs ps).keys.Nodup := by
  suffices h : ∀ t : Table κ α, t.keys.Nodup →
      (keys (ps.foldl (fun t p => t.assign p.1 p.2) t)).Nodup from h [] List.nodup_nil
  induction ps with
  | nil => exact fun t ht => ht
  | cons p ps ih => exact fun t ht => ih _ (nodup_keys_assign ht p.1 p.2)

theorem mem_of_mem_ofPairs {ps : List (κ × α)} {e : κ × α} (h : e ∈ ofPairs ps) : e ∈ ps := by
  suffices hall : ∀ t : Table κ α, e ∈ ps.foldl (fun t p => t.assign p.1 p.2) t → e ∈ t ∨ e ∈ ps from
    (hall [] h).elim (fun he => absurd he List.not_mem_nil) id
  clear h
  induction ps with
  | nil => exact fun t he => .inl he
  | cons p ps ih =>
      intro t he
      rcases ih _ he with he | he
      · rcases mem_assign he with he | rfl
        · exact .inl he
        · exact .inr List.mem_cons_self
      · exact .inr (List.mem_cons_of_mem p he)

end Table

/-- An object with one field for a key, and so is each object among its values. -/
structure JsonObject.Proper (o : JsonObject) : Prop where
  nodup : o.keys.Nodup
  inner : ∀ key fields, (key, .object fields) ∈ o → (Table.keys fields).Nodup

/-! ### Objects that are read -/

namespace Json

namespace Reader

/-- The fields of an object that is read are those between its braces. -/
theorem exists_fields_of_value? {fuel depth : Nat} {cs r : List Char} {o : JsonObject}
    (h : Reader.value? fuel depth cs = some (.object o, r)) : ∃ es, o = Table.ofPairs es ∧
      (es = [] ∨ ∃ fuel depth cs, fields? fuel depth cs = some (es, r)) := by
  cases fuel with
  | zero => cases h
  | succ fuel =>
      unfold Reader.value? at h
      split at h
      all_goals simp only [Option.bind_eq_bind, Option.bind_eq_some_iff, Option.pure_def,
        Option.some.injEq, Prod.mk.injEq, reduceCtorEq, false_and, and_false, exists_false] at h
      · split at h
        · cases h
        · split at h
          · cases h
          · obtain ⟨items, -, h⟩ := Option.bind_eq_some_iff.1 h
            cases h
      · split at h
        · cases h
        · split at h
          · cases h
            exact ⟨[], rfl, .inl rfl⟩
          · obtain ⟨es, he, h⟩ := Option.bind_eq_some_iff.1 h
            cases h
            exact ⟨es.1, rfl, .inr ⟨_, _, _, he⟩⟩

theorem nodup_of_value? {fuel depth : Nat} {cs r : List Char} {o : JsonObject}
    (h : Reader.value? fuel depth cs = some (.object o, r)) : o.keys.Nodup := by
  obtain ⟨es, rfl, -⟩ := exists_fields_of_value? h
  exact Table.nodup_keys_ofPairs es

/-- The values of fields are read one by one. -/
theorem nodup_of_mem_fields? {fuel depth : Nat} {cs r : List Char} {es : List (String × Json)}
    (h : fields? fuel depth cs = some (es, r)) {key : String} {fields : JsonObject}
    (hmem : (key, .object fields) ∈ es) : (Table.keys fields).Nodup := by
  induction fuel generalizing cs es with
  | zero => cases h
  | succ fuel ih =>
      unfold fields? at h
      split at h
      · obtain ⟨⟨name, r₁⟩, -, h⟩ := Option.bind_eq_some_iff.1 h
        dsimp only at h
        split at h
        · obtain ⟨⟨v, r₂⟩, hv, h⟩ := Option.bind_eq_some_iff.1 h
          dsimp only at h
          have hv' : ∀ o : JsonObject, v = .object o → o.keys.Nodup := fun o ho =>
            nodup_of_value? (ho ▸ hv)
          split at h
          · cases h
            cases List.mem_singleton.1 hmem
            exact hv' fields rfl
          · obtain ⟨⟨es', r₃⟩, he, h⟩ := Option.bind_eq_some_iff.1 h
            cases h
            rcases List.mem_cons.1 hmem with hmem | hmem
            · exact hv' fields (Prod.mk.inj hmem).2.symm
            · exact ih he hmem
          · cases h
        · cases h
      · cases h

end Reader

/-- An object that is read from a text is proper. -/
theorem proper_of_read {s : String} {o : JsonObject} (h : Json.read? s = some (.object o)) :
    o.Proper := by
  unfold Json.read? at h
  dsimp only at h
  split at h
  · next v rest hv =>
      split at h
      · cases h
        refine ⟨Reader.nodup_of_value? hv, fun key fields hmem => ?_⟩
        obtain ⟨es, rfl, rfl | ⟨fuel, depth, cs, he⟩⟩ := Reader.exists_fields_of_value? hv
        · cases hmem
        · exact Reader.nodup_of_mem_fields? he (Table.mem_of_mem_ofPairs hmem)
      · cases h
  · cases h

end Json

/-! ### Taking a key away -/

/-- The entries that are left are among those of before, in another order. -/
theorem JsonObject.exists_perm_swapRemove (o : JsonObject) (key : String) :
    ∃ rest : JsonObject, (o.swapRemove key).Perm rest ∧ rest.Sublist o := by
  have hspan : (o.span fun e => e.1 ≠ key).1 ++ (o.span fun e => e.1 ≠ key).2 = o := by
    rw [List.span_eq_takeWhile_dropWhile, List.takeWhile_append_dropWhile]
  unfold swapRemove
  split
  · exact ⟨o, .refl _, .refl _⟩
  · next front e back hs =>
      rw [hs] at hspan
      have hsub : (front ++ back).Sublist o :=
        hspan ▸ (List.sublist_cons_self e back).append_left front
      split
      · next hlast =>
          rw [List.getLast?_eq_none_iff] at hlast
          exact ⟨front, .refl _, by simpa [hlast] using hsub⟩
      · next last hlast =>
          -- the last entry is moved
          refine ⟨front ++ back, .append_left front ?_, hsub⟩
          obtain ⟨init, rfl⟩ := List.getLast?_eq_some_iff.1 hlast
          rw [List.dropLast_concat]
          exact (List.perm_append_singleton last init).symm

theorem JsonObject.Proper.swapRemove {o : JsonObject} (h : o.Proper) (key : String) :
    (o.swapRemove key).Proper := by
  obtain ⟨rest, hperm, hsub⟩ := o.exists_perm_swapRemove key
  refine ⟨?_, fun k fields hmem => h.inner k fields (hsub.subset (hperm.mem_iff.1 hmem))⟩
  exact ((hperm.map Prod.fst).nodup_iff).2 (h.nodup.sublist (hsub.map Prod.fst))

end RenderMaterials
