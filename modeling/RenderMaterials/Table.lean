/-!
# Tables

A finite map written as a list of pairs.  The list keeps the order in which keys first arrived:
assigning to a key that is present changes its value in place, and a new key goes to the end.

* `value?_assign`: what `assign` does to every look-up.
* `value?_filter_keys`, `value?_without`: what keeping some keys does to every look-up.
* `length_without_lt`: taking a present key away makes the table smaller.
* `keys_assign`: `assign` adds its key at the end, or leaves the keys as they are.
* `keys_foldl_assign`: pairs that are assigned in turn add each new key once.
* `length_assign`: a table grows by one entry for each new key.
* `value?_ofPairs`, `value?_perm`: of several pairs of a key the last one counts, and otherwise the
  order of entries says nothing about look-ups.
-/

namespace RenderMaterials

/-- A finite map in order of first assignment. -/
abbrev Table (κ α : Type) := List (κ × α)

namespace Table

variable {κ α β : Type} [DecidableEq κ]

/-- The value of the first entry of a key. -/
def value? : Table κ α → κ → Option α
  | [],          _ => none
  | (k, v) :: t, i => if k = i then some v else value? t i

/-- Whether a key has an entry. -/
def has (t : Table κ α) (i : κ) : Bool := (t.value? i).isSome

/-- Replaces the value of a present key in its place, and appends a new key. -/
def assign : Table κ α → κ → α → Table κ α
  | [],          i, x => [(i, x)]
  | (k, v) :: t, i, x => if k = i then (k, x) :: t else (k, v) :: assign t i x

/-- The table without the entries of a key, the others in their order. -/
def without (t : Table κ α) (i : κ) : Table κ α := t.filter (fun e => e.1 ≠ i)

/-- The keys in order. -/
def keys (t : Table κ α) : List κ := t.map Prod.fst

/-- The values in order. -/
def values (t : Table κ α) : List α := t.map Prod.snd

/-- Assigns each pair in turn. -/
def ofPairs (ps : List (κ × α)) : Table κ α := ps.foldl (fun t p => t.assign p.1 p.2) []

/-- Assigns each pair in turn, skipping keys that are present. -/
def ofFirst (ps : List (κ × α)) : Table κ α :=
  ps.foldl (fun t p => if t.has p.1 then t else t.assign p.1 p.2) []

/-! ### Look-ups -/

@[simp] theorem value?_nil (i : κ) : value? ([] : Table κ α) i = none := rfl

@[simp] theorem value?_assign_same (t : Table κ α) (i : κ) (x : α) :
    (t.assign i x).value? i = some x := by
  induction t with
  | nil => simp [assign, value?]
  | cons e t ih => by_cases h : e.1 = i <;> simp [assign, value?, h, ih]

theorem value?_assign_other (t : Table κ α) {i j : κ} (x : α) (h : i ≠ j) :
    (t.assign i x).value? j = t.value? j := by
  induction t with
  | nil => simp [assign, value?, h]
  | cons e t ih =>
      by_cases hi : e.1 = i
      · simp [assign, value?, hi, h]
      · by_cases hj : e.1 = j
        · simp [assign, value?, hj, Ne.symm h]
        · simp [assign, value?, hi, hj, ih]

/-- Entries are kept or dropped by their keys. -/
theorem value?_filter_keys (t : Table κ α) (keep : κ → Bool) (i : κ) :
    value? (t.filter fun e => keep e.1) i = if keep i then t.value? i else none := by
  induction t with
  | nil => simp
  | cons e t ih =>
      by_cases he : e.1 = i
      · subst he
        cases hk : keep e.1 <;> simp_all [value?]
      · cases hk : keep e.1 <;> simp [hk, value?, he, ih]

theorem value?_assign (t : Table κ α) (i j : κ) (x : α) :
    (t.assign i x).value? j = if i = j then some x else t.value? j := by
  by_cases h : i = j
  · subst h; simp
  · rw [value?_assign_other t x h, if_neg h]

theorem value?_without (t : Table κ α) (i j : κ) :
    (t.without i).value? j = if i = j then none else t.value? j := by
  have h := value?_filter_keys t (fun k => k ≠ i) j
  by_cases hij : i = j
  · subst hij
    simpa [without] using h
  · simpa [without, hij, Ne.symm hij] using h

@[simp] theorem value?_without_same (t : Table κ α) (i : κ) : (t.without i).value? i = none := by
  rw [value?_without, if_pos rfl]

theorem value?_without_other (t : Table κ α) {i j : κ} (h : i ≠ j) :
    (t.without i).value? j = t.value? j := by
  rw [value?_without, if_neg h]

theorem value?_append (s t : Table κ α) (i : κ) :
    value? (s ++ t) i = (value? s i).or (value? t i) := by
  induction s with
  | nil => rfl
  | cons e s ih => by_cases h : e.1 = i <;> simp [value?, h, ih]

/-- What a key leads to when each value is changed as its key says. -/
theorem value?_map (t : Table κ α) (f : κ → α → β) (i : κ) :
    value? (t.map fun e => (e.1, f e.1 e.2)) i = (t.value? i).map (f i) := by
  induction t with
  | nil => rfl
  | cons e t ih =>
      by_cases h : e.1 = i
      · subst h
        simp [value?]
      · simpa [value?, h] using ih

/-- Pairs that are assigned in turn hide what was there before. -/
theorem value?_foldl_assign (ps : List (κ × α)) (t : Table κ α) (i : κ) :
    (ps.foldl (fun t p => t.assign p.1 p.2) t).value? i =
      (value? ps.reverse i).or (t.value? i) := by
  induction ps generalizing t with
  | nil => rfl
  | cons p ps ih =>
      rw [List.foldl_cons, ih, value?_assign, List.reverse_cons, value?_append]
      by_cases hp : p.1 = i <;> simp [value?, hp]

/-- Of several pairs of a key the last is assigned. -/
theorem value?_ofPairs (ps : List (κ × α)) (i : κ) :
    (ofPairs ps).value? i = value? ps.reverse i := by
  rw [ofPairs, value?_foldl_assign, value?_nil, Option.or_none]

/-- An entry that is kept is found as before. -/
theorem value?_filter {t : Table κ α} {keep : κ × α → Bool} {i : κ} {x : α}
    (h : t.value? i = some x) (hk : keep (i, x) = true) : value? (t.filter keep) i = some x := by
  induction t with
  | nil => simp at h
  | cons e t ih =>
      by_cases he : e.1 = i
      · have hx : e.2 = x := by simpa [value?, he] using h
        have hk' : keep e = true := by rw [← hk, ← he, ← hx]
        simp [hk', value?, he, hx]
      · have h' : value? t i = some x := by simpa [value?, he] using h
        cases hk' : keep e with
        | true => simpa [hk', value?, he] using ih h'
        | false => simpa [hk'] using ih h'

theorem mem_of_value? {t : Table κ α} {i : κ} {x : α} (h : t.value? i = some x) : (i, x) ∈ t := by
  induction t with
  | nil => simp at h
  | cons e t ih =>
      by_cases he : e.1 = i
      · have hx : e.2 = x := by simpa [value?, he] using h
        rw [← he, ← hx]
        exact List.mem_cons_self
      · have h' : value? t i = some x := by simpa [value?, he] using h
        exact List.mem_cons_of_mem e (ih h')

/-- An entry is one of before, or the one that was assigned. -/
theorem mem_assign {t : Table κ α} {i : κ} {x : α} {e : κ × α} (h : e ∈ t.assign i x) :
    e ∈ t ∨ e = (i, x) := by
  induction t with
  | nil => exact .inr (by simpa [assign] using h)
  | cons e' t ih =>
      by_cases he : e'.1 = i
      · have h' : e = (e'.1, x) ∨ e ∈ t := by simpa [assign, he] using h
        rcases h' with rfl | h'
        · exact .inr (by rw [he])
        · exact .inl (List.mem_cons_of_mem e' h')
      · have h' : e = e' ∨ e ∈ assign t i x := by simpa [assign, he] using h
        rcases h' with rfl | h'
        · exact .inl List.mem_cons_self
        · exact (ih h').imp (List.mem_cons_of_mem e') id

theorem has_iff {t : Table κ α} {i : κ} : t.has i = true ↔ ∃ x, t.value? i = some x := by
  rw [has, Option.isSome_iff_exists]

theorem has_assign (t : Table κ α) (i j : κ) (x : α) :
    (t.assign i x).has j = (decide (i = j) || t.has j) := by
  by_cases h : i = j <;> simp [has, value?_assign, h]

/-! ### Keys -/

theorem mem_keys_iff (t : Table κ α) (i : κ) : i ∈ t.keys ↔ t.has i = true := by
  induction t with
  | nil => simp [keys, has]
  | cons e t ih =>
      by_cases h : e.1 = i
      · simp [keys, has, value?, h]
      · simpa [keys, has, value?, h, Ne.symm h] using ih

theorem keys_assign (t : Table κ α) (i : κ) (x : α) :
    (t.assign i x).keys = if t.has i then t.keys else t.keys ++ [i] := by
  induction t with
  | nil => simp [assign, keys, has]
  | cons e t ih =>
      by_cases h : e.1 = i
      · simp [assign, keys, has, value?, h]
      · cases hh : (value? t i).isSome <;> simp_all [assign, keys, has, value?]

theorem eraseDups_concat (ks : List κ) (i : κ) :
    (ks ++ [i]).eraseDups = if i ∈ ks then ks.eraseDups else ks.eraseDups ++ [i] := by
  rw [List.eraseDups_append]
  by_cases h : i ∈ ks
  · simp [List.removeAll, h]
  · simp [List.removeAll, h, List.eraseDups_cons]

theorem eraseDups_of_nodup {ks : List κ} (h : ks.Nodup) : ks.eraseDups = ks := by
  induction ks with
  | nil => rfl
  | cons k ks ih =>
      obtain ⟨hk, hks⟩ := List.nodup_cons.1 h
      have hfilter : ks.filter (fun j => !j == k) = ks :=
        List.filter_eq_self.2 fun j hj => by
          have hne : j ≠ k := fun e => hk (e ▸ hj)
          simpa using hne
      rw [List.eraseDups_cons, hfilter, ih hks]

theorem nodup_eraseDups (ks : List κ) : ks.eraseDups.Nodup := by
  rw [← ks.reverse_reverse]
  induction ks.reverse with
  | nil => exact List.nodup_nil
  | cons k ks ih =>
      rw [List.reverse_cons, eraseDups_concat]
      split
      · exact ih
      · next hk =>
          refine List.nodup_append.2 ⟨ih, by simp, fun j hj i hi e => ?_⟩
          rw [e, List.mem_singleton.1 hi, List.mem_eraseDups, List.mem_reverse] at hj
          exact hk (List.mem_reverse.2 hj)

/-- A table that holds each key of a list once, in order of first occurrence, and is assigned one
more. -/
theorem keys_assign_of_keys {t : Table κ α} {ks : List κ} (h : t.keys = ks.eraseDups) (i : κ)
    (x : α) : (t.assign i x).keys = (ks ++ [i]).eraseDups := by
  have hhas : t.has i = true ↔ i ∈ ks := by
    rw [← mem_keys_iff, h, List.mem_eraseDups]
  rw [keys_assign, eraseDups_concat, h]
  simp only [hhas]

/-- Pairs that are assigned in turn add their new keys at the end. -/
theorem keys_foldl_assign {t : Table κ α} {ks : List κ} (h : t.keys = ks.eraseDups)
    (ps : List (κ × α)) :
    (ps.foldl (fun t p => t.assign p.1 p.2) t).keys = (ks ++ keys ps).eraseDups := by
  induction ps generalizing t ks with
  | nil => simpa [keys] using h
  | cons p ps ih =>
      rw [List.foldl_cons, ih (keys_assign_of_keys h p.1 p.2), List.append_assoc]
      rfl

/-! ### Tables with one entry for a key -/

theorem nodup_keys_assign {t : Table κ α} (h : t.keys.Nodup) (i : κ) (x : α) :
    (t.assign i x).keys.Nodup := by
  rw [keys_assign]
  split
  · exact h
  · next hi =>
      refine List.nodup_append.2 ⟨h, by simp, fun j hj k hk e => ?_⟩
      rw [e, List.mem_singleton.1 hk, mem_keys_iff] at hj
      exact hi hj

theorem value?_eq_some_iff {t : Table κ α} (h : t.keys.Nodup) {i : κ} {x : α} :
    t.value? i = some x ↔ (i, x) ∈ t := by
  refine ⟨mem_of_value?, fun hm => ?_⟩
  induction t with
  | nil => simp at hm
  | cons e t ih =>
      obtain ⟨hne, ht⟩ := List.nodup_cons.1 h
      rcases List.mem_cons.1 hm with rfl | hm
      · simp [value?]
      · have he : e.1 ≠ i := fun he => hne (he ▸ List.mem_map_of_mem hm)
        simpa [value?, he] using ih ht hm

/-- The order of entries with different keys does not matter. -/
theorem value?_perm {s t : Table κ α} (h : s.Perm t) (hs : s.keys.Nodup) (i : κ) :
    s.value? i = t.value? i := by
  have ht : t.keys.Nodup := (h.map Prod.fst).nodup hs
  refine Option.ext fun x => ?_
  rw [value?_eq_some_iff hs, value?_eq_some_iff ht, h.mem_iff]

omit [DecidableEq κ] in
theorem nodup_keys_filter {t : Table κ α} (h : t.keys.Nodup) (keep : κ × α → Bool) :
    (keys (t.filter keep)).Nodup :=
  h.sublist (List.filter_sublist.map Prod.fst)

/-- A key is found after entries are dropped exactly when its entry is kept. -/
theorem value?_filter_iff {t : Table κ α} (h : t.keys.Nodup) {keep : κ × α → Bool} {i : κ} {x : α} :
    value? (t.filter keep) i = some x ↔ t.value? i = some x ∧ keep (i, x) = true := by
  rw [value?_eq_some_iff (nodup_keys_filter h keep), value?_eq_some_iff h, List.mem_filter]

/-! ### Size -/

/-- A new key goes to the end. -/
theorem assign_of_not_has {t : Table κ α} {i : κ} (h : t.has i = false) (x : α) :
    t.assign i x = t ++ [(i, x)] := by
  induction t with
  | nil => rfl
  | cons e t ih =>
      by_cases he : e.1 = i
      · simp [has, value?, he] at h
      · have h' : has t i = false := by simpa [has, value?, he] using h
        simp [assign, he, ih h']

theorem length_assign (t : Table κ α) (i : κ) (x : α) :
    (t.assign i x).length = if t.has i then t.length else t.length + 1 := by
  have h := congrArg List.length (keys_assign t i x)
  simp only [keys, List.length_map] at h
  rw [h]
  split <;> simp

theorem length_without_lt {t : Table κ α} {i : κ} {x : α} (h : t.value? i = some x) :
    (t.without i).length < t.length := by
  induction t with
  | nil => simp at h
  | cons e t ih =>
      by_cases he : e.1 = i
      · have := List.length_filter_le (fun e : κ × α => decide (e.1 ≠ i)) t
        simp only [ne_eq, decide_not] at this
        simp [without, he]
        omega
      · have h' : value? t i = some x := by simpa [value?, he] using h
        simpa [without, he] using ih h'

end Table

end RenderMaterials
