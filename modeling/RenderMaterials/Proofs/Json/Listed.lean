import RenderMaterials.Json.Value
import RenderMaterials.Proofs.Result

/-!
# JSON objects — keyed and listed entries

Entries with names can be written as an object, each under its name, or as a list, each with its
name in a field.  The list of a keyed object has its entries in their order; an entry that has the
field already loses what was in it.

* `Table.Related`, `Json.Fieldwise`: tables and objects with the same keys in the same order, whose
  values are related as their keys say.  `Json.Itemwise`: lists whose items are related.
* `Table.Related.value?`, `Json.Fieldwise.field?`: what is found in them is related.
* `Json.AgreeBut`: values with the same fields, one key apart.
* `Json.Listed`: a value, or the list of a keyed object whose entries are objects.
-/

namespace RenderMaterials

/-! ### Related tables -/

namespace Table

variable {κ α β : Type} {R : κ → α → β → Prop} {t : Table κ α} {t' : Table κ β}

/-- Tables with the same keys in the same order, whose values are related as their keys say. -/
def Related (R : κ → α → β → Prop) (t : Table κ α) (t' : Table κ β) : Prop :=
  List.Forall₂ (fun e e' => e'.1 = e.1 ∧ R e.1 e.2 e'.2) t t'

namespace Related

theorem refl {R : κ → α → α → Prop} (hR : ∀ k a, R k a a) (t : Table κ α) : Related R t t :=
  List.forall₂_same.2 fun e _ => ⟨rfl, hR e.1 e.2⟩

theorem reverse (h : Related R t t') : Related R t.reverse t'.reverse :=
  List.rel_reverse h

theorem keys (h : Related R t t') : Table.keys t' = Table.keys t := by
  induction h with
  | nil => rfl
  | cons he _ ih => exact congrArg₂ List.cons he.1 ih

/-- What a key leads to in related tables is related. -/
theorem value? [DecidableEq κ] (h : Related R t t') (k : κ) :
    Option.Rel (R k) (t.value? k) (t'.value? k) := by
  induction h with
  | nil => exact .none
  | @cons e e' t t' he _ ih =>
      obtain ⟨name, a⟩ := e
      obtain ⟨name', b⟩ := e'
      obtain ⟨rfl, hab⟩ := he
      by_cases hk : name' = k
      · subst hk
        simpa [Table.value?] using Option.Rel.some hab
      · simpa [Table.value?, hk] using ih

theorem assign [DecidableEq κ] (h : Related R t t') {k : κ} {a : α} {b : β} (hab : R k a b) :
    Related R (t.assign k a) (t'.assign k b) := by
  induction h with
  | nil => exact .cons ⟨rfl, hab⟩ .nil
  | @cons e e' t t' he ht ih =>
      obtain ⟨name, x⟩ := e
      obtain ⟨name', y⟩ := e'
      obtain ⟨rfl, hxy⟩ := he
      unfold Table.assign
      split
      · next hk => exact .cons ⟨rfl, hk ▸ hab⟩ ht
      · exact .cons ⟨rfl, hxy⟩ ih

end Related

end Table

/-! ### One key apart -/

namespace Json

/-- Values that have the same fields under every key but one. -/
def AgreeBut (key : String) (v v' : Json) : Prop := ∀ k, k ≠ key → v'.field? k = v.field? k

theorem AgreeBut.refl (key : String) (v : Json) : AgreeBut key v v := fun _ _ => rfl

/-- An object with a field put in it; other values stay. -/
def withField : Json → String → Json → Json
  | object fields, key, x => object (Table.assign fields key x)
  | v,             _,   _ => v

theorem agreeBut_withField (v : Json) (key : String) (x : Json) :
    AgreeBut key v (v.withField key x) := by
  intro k hk
  cases v with
  | object fields => exact Table.value?_assign_other fields x (Ne.symm hk)
  | null => rfl
  | bool b => rfl
  | number n => rfl
  | text s => rfl
  | array items => rfl

theorem exists_object {v : Json} (h : v.isObject = true) :
    ∃ fields : JsonObject, v = object fields := by
  cases v with
  | object fields => exact ⟨fields, rfl⟩
  | null => cases h
  | bool b => cases h
  | number n => cases h
  | text s => cases h
  | array items => cases h

theorem eq_text {v : Json} {s : String} (h : v.text? = some s) : v = text s := by
  cases v with
  | text t => exact congrArg text (Option.some.inj h)
  | _ => cases h

theorem textField?_withField {v : Json} (h : v.isObject = true) (key name : String) :
    (v.withField key (.text name)).textField? key = some name := by
  obtain ⟨fields, rfl⟩ := exists_object h
  simp only [withField, textField?, field?, Table.value?_assign_same]
  rfl

end Json

/-! ### Lists of entries -/

namespace Json

/-- A keyed entry as an item of a list: its name is put in a field. -/
def item (key : String) (e : String × Json) : Json := e.2.withField key (.text e.1)

/-- A value as it is, or a keyed object whose entries are objects as the list of its entries. -/
inductive Listed (key : String) : Json → Json → Prop
  | same (v : Json) : Listed key v v
  | items {es : List (String × Json)} (h : ∀ e ∈ es, e.2.isObject = true) :
      Listed key (.object es) (.array (es.map (item key)))

end Json

/-! ### Related fields and items -/

namespace Json

/-- Lists with related items, or one value twice. -/
inductive Itemwise (R : Json → Json → Prop) : Json → Json → Prop
  | same (v : Json) : Itemwise R v v
  | array {vs vs' : List Json} (h : List.Forall₂ R vs vs') : Itemwise R (.array vs) (.array vs')

/-- The items of both are related. -/
theorem Itemwise.items {R : Json → Json → Prop} (hR : ∀ v, R v v) {v v' : Json}
    (h : Itemwise R v v') :
    List.Forall₂ R (v.array?.getD []) (v'.array?.getD []) := by
  cases h with
  | same => exact List.forall₂_same.2 fun x _ => hR x
  | array h => exact h

theorem Itemwise.mono {R S : Json → Json → Prop} (hRS : ∀ {v v'}, R v v' → S v v') {v v' : Json}
    (h : Itemwise R v v') : Itemwise S v v' := by
  cases h with
  | same => exact .same _
  | array h => exact .array (h.imp fun _ _ => hRS)

/-- Objects with related fields, or one value twice. -/
inductive Fieldwise (R : String → Json → Json → Prop) : Json → Json → Prop
  | same (v : Json) : Fieldwise R v v
  | object {o o' : JsonObject} (h : Table.Related R o o') : Fieldwise R (.object o) (.object o')

variable {R : String → Json → Json → Prop} {v v' : Json}

theorem Fieldwise.mono {S : String → Json → Json → Prop} (hRS : ∀ {k v v'}, R k v v' → S k v v')
    (h : Fieldwise R v v') : Fieldwise S v v' := by
  cases h with
  | same => exact .same _
  | object h => exact .object (h.imp fun _ _ he => ⟨he.1, hRS he.2⟩)

/-- What a key leads to in both is related by what its relation says. -/
theorem Fieldwise.field? (hR : ∀ k v, R k v v) (h : Fieldwise R v v') {k : String}
    {S : Json → Json → Prop} (hk : ∀ x x', R k x x' → S x x') :
    Option.Rel S (v.field? k) (v'.field? k) := by
  cases h with
  | same => exact Result.rel_refl (fun x => hk x x (hR k x)) (v.field? k)
  | object h =>
      obtain ⟨ho, ho'⟩ | ⟨x, x', ho, ho', hx⟩ := Result.rel_cases (h.value? k)
      · simp only [Json.field?, ho, ho']
        exact .none
      · simp only [Json.field?, ho, ho']
        exact .some (hk x x' hx)

/-- Under a key whose values cannot differ, both have the same field. -/
theorem Fieldwise.field?_eq (hR : ∀ k v, R k v v) (h : Fieldwise R v v') {k : String}
    (hk : ∀ x x', R k x x' → x' = x) : v'.field? k = v.field? k := by
  obtain ⟨hv, hv'⟩ | ⟨x, x', hv, hv', hx⟩ := Result.rel_cases (h.field? hR hk)
  · rw [hv, hv']
  · rw [hv, hv', hx]

end Json

end RenderMaterials
