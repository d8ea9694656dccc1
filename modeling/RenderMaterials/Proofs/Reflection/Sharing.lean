import RenderMaterials.Reflection.Cache
import Mathlib.Data.List.Induction
import Mathlib.Data.List.Nodup

/-!
# Reflection cache — sharing

The three tables of a reflection cache say one thing: which identities share which entry.  A cache
is `Coherent` when an identity is put to a hash exactly when the hash lists it, no list is empty,
and the hashes with an entry are those with a list.

* `identitiesAt_detach`, `entries_detach`, `identitiesAt_bind`, `entries_bind`: what taking an
  identity from a hash and putting it to one do to every look-up.
* `History.Kept.after`: each request keeps the tables coherent, the entries sound and the count
  right, whatever the reflector answers.
* `History.lawful`: after every run of requests, what the next look-up answers and when it asks the
  reflector (`LookUp`), what the next invalidation drops (`Forgetting`), and what the counters
  count.
-/

namespace RenderMaterials

namespace ReflectionCache

variable {c : ReflectionCache} {i : String} {h : UInt64}

/-! ### Coherent tables -/

/-- The identities that share the entry of a hash. -/
def identitiesAt (c : ReflectionCache) (h : UInt64) : List String :=
  (c.identitiesByHash.value? h).getD []

/-- How many look-ups found an entry, and how many did not. -/
def counters (c : ReflectionCache) : Nat × Nat := (c.hits, c.misses)

/-- No list of identities is empty. -/
def NoEmptyList (c : ReflectionCache) : Prop :=
  ∀ h is, c.identitiesByHash.value? h = some is → is ≠ []

/-- The three tables agree. -/
structure Coherent (c : ReflectionCache) : Prop where
  /-- An identity is put to a hash exactly when the hash lists it. -/
  bound_iff : ∀ i h, c.hashByIdentity.value? i = some h ↔ i ∈ c.identitiesAt h
  /-- No hash lists an identity twice. -/
  nodup : ∀ h, (c.identitiesAt h).Nodup
  noEmptyList : c.NoEmptyList
  /-- The hashes with an entry are those with a list. -/
  live_iff : ∀ h, h ∈ c.entries.keys ↔ h ∈ c.identitiesByHash.keys

theorem Coherent.empty : Coherent {} := by
  refine ⟨fun i h => ?_, fun h => ?_, fun h is e => ?_, fun h => Iff.rfl⟩
  · simp [identitiesAt]
  · simp [identitiesAt]
  · simp at e

/-- A list that is not empty is one that some identity is on. -/
theorem NoEmptyList.mem_keys_iff (hn : c.NoEmptyList) (h : UInt64) :
    h ∈ c.identitiesByHash.keys ↔ c.identitiesAt h ≠ [] := by
  rw [Table.mem_keys_iff, Table.has_iff]
  constructor
  · rintro ⟨is, e⟩
    rw [identitiesAt, e]
    exact hn h is e
  · intro hne
    cases e : c.identitiesByHash.value? h with
    | none => simp [identitiesAt, e] at hne
    | some is => exact ⟨is, rfl⟩

/-- A hash has an entry exactly when some identity shares it. -/
theorem Coherent.has_iff (hc : c.Coherent) (h : UInt64) :
    c.entries.has h = true ↔ c.identitiesAt h ≠ [] := by
  rw [← Table.mem_keys_iff, hc.live_iff, hc.noEmptyList.mem_keys_iff]

/-! ### Taking an identity from a hash -/

/-- The identities that share an entry apart from one. -/
def others (c : ReflectionCache) (i : String) (h : UInt64) : List String :=
  (c.identitiesAt h).filter (· ≠ i)

theorem detach_last (e : c.others i h = []) :
    c.detach i h = (c.entries.has h,
      { c with
        entries          := c.entries.without h
        identitiesByHash := c.identitiesByHash.without h }) :=
  if_pos e

theorem detach_shared (e : c.others i h ≠ []) :
    c.detach i h =
      (false, { c with identitiesByHash := c.identitiesByHash.assign h (c.others i h) }) :=
  if_neg e

@[simp] theorem detach_hashByIdentity (c : ReflectionCache) (i : String) (h : UInt64) :
    (c.detach i h).2.hashByIdentity = c.hashByIdentity := by
  by_cases e : c.others i h = []
  · rw [detach_last e]
  · rw [detach_shared e]

@[simp] theorem counters_detach (c : ReflectionCache) (i : String) (h : UInt64) :
    (c.detach i h).2.counters = c.counters := by
  by_cases e : c.others i h = []
  · rw [detach_last e]; rfl
  · rw [detach_shared e]; rfl

theorem identitiesAt_detach (c : ReflectionCache) (i : String) (h h' : UInt64) :
    (c.detach i h).2.identitiesAt h' = if h = h' then c.others i h else c.identitiesAt h' := by
  by_cases e : c.others i h = []
  · rw [detach_last e, e]
    simp only [identitiesAt, Table.value?_without]
    split <;> rfl
  · rw [detach_shared e]
    simp only [identitiesAt, Table.value?_assign]
    split <;> rfl

/-- An entry goes exactly when nobody else shares it. -/
theorem entries_detach (c : ReflectionCache) (i : String) (h h' : UInt64) :
    (c.detach i h).2.entries.value? h' =
      if h = h' ∧ c.others i h = [] then none else c.entries.value? h' := by
  by_cases e : c.others i h = []
  · rw [detach_last e]
    simp only [Table.value?_without, e, and_true]
  · rw [detach_shared e, if_neg fun hh => e hh.2]

theorem detach_dropped (c : ReflectionCache) (i : String) (h : UInt64) :
    (c.detach i h).1 = true ↔ c.others i h = [] ∧ c.entries.has h = true := by
  by_cases e : c.others i h = []
  · rw [detach_last e]; exact ⟨fun hd => ⟨e, hd⟩, fun hd => hd.2⟩
  · rw [detach_shared e]; exact ⟨fun hd => by simp at hd, fun hd => absurd hd.1 e⟩

theorem NoEmptyList.detach (hn : c.NoEmptyList) (i : String) (h : UInt64) :
    (c.detach i h).2.NoEmptyList := by
  intro h' is hv
  by_cases e : c.others i h = []
  · rw [detach_last e, Table.value?_without] at hv
    split at hv
    · cases hv
    · exact hn h' is hv
  · rw [detach_shared e, Table.value?_assign] at hv
    split at hv
    · exact Option.some.inj hv ▸ e
    · exact hn h' is hv

/-! ### Putting an identity to a hash -/

/-- The first half of `bind`: the identity is taken from any other hash. -/
def leave (c : ReflectionCache) (i : String) (h : UInt64) : ReflectionCache :=
  let c' := { c with hashByIdentity := c.hashByIdentity.assign i h }
  match c.hashByIdentity.value? i with
  | some h' => if h' = h then c' else (c'.detach i h').2
  | none    => c'

/-- The second half: the hash lists the identity. -/
def join (c : ReflectionCache) (i : String) (h : UInt64) : ReflectionCache :=
  if (c.identitiesAt h).contains i then c
  else { c with identitiesByHash := c.identitiesByHash.assign h (c.identitiesAt h ++ [i]) }

theorem bind_eq (c : ReflectionCache) (i : String) (h : UInt64) :
    c.bind i h = (c.leave i h).join i h := by
  unfold bind leave
  cases c.hashByIdentity.value? i <;> rfl

/-- Whether an identity has to leave a hash when it is put to another. -/
def Leaves (c : ReflectionCache) (i : String) (h h' : UInt64) : Prop :=
  c.hashByIdentity.value? i = some h' ∧ h' ≠ h

instance (h' : UInt64) : Decidable (c.Leaves i h h') := inferInstanceAs (Decidable (_ ∧ _))

theorem leave_of_leaves {h' : UInt64} (e : c.Leaves i h h') :
    c.leave i h = ({ c with hashByIdentity := c.hashByIdentity.assign i h }.detach i h').2 := by
  simp only [leave, e.1, if_neg e.2]

theorem leave_of_stays (e : ∀ h', ¬ c.Leaves i h h') :
    c.leave i h = { c with hashByIdentity := c.hashByIdentity.assign i h } := by
  unfold leave
  cases hv : c.hashByIdentity.value? i with
  | none => rfl
  | some h' =>
      have : h' = h := by_contra fun hne => e h' ⟨hv, hne⟩
      simp only [if_pos this]

/-- An identity leaves one hash, or none. -/
theorem leave_cases (c : ReflectionCache) (i : String) (h : UInt64) :
    (∃ h', c.Leaves i h h') ∨ ∀ h', ¬ c.Leaves i h h' := by
  by_cases e : ∃ h', c.Leaves i h h'
  · exact .inl e
  · exact .inr fun h' hl => e ⟨h', hl⟩

theorem Leaves.unique {h₁ h₂ : UInt64} (e₁ : c.Leaves i h h₁) (e₂ : c.Leaves i h h₂) : h₁ = h₂ :=
  Option.some.inj (e₁.1.symm.trans e₂.1)

@[simp] theorem leave_hashByIdentity (c : ReflectionCache) (i : String) (h : UInt64) :
    (c.leave i h).hashByIdentity = c.hashByIdentity.assign i h := by
  rcases leave_cases c i h with ⟨h', e⟩ | e
  · rw [leave_of_leaves e, detach_hashByIdentity]
  · rw [leave_of_stays e]

theorem identitiesAt_leave (c : ReflectionCache) (i : String) (h h' : UInt64) :
    (c.leave i h).identitiesAt h' =
      if c.Leaves i h h' then c.others i h' else c.identitiesAt h' := by
  rcases leave_cases c i h with ⟨h₁, e⟩ | e
  · rw [leave_of_leaves e, identitiesAt_detach]
    by_cases hh : h₁ = h'
    · subst hh; rw [if_pos rfl, if_pos e]; rfl
    · rw [if_neg hh, if_neg fun e' => hh (e.unique e')]; rfl
  · rw [leave_of_stays e, if_neg (e h')]; rfl

theorem entries_leave (c : ReflectionCache) (i : String) (h h' : UInt64) :
    (c.leave i h).entries.value? h' =
      if c.Leaves i h h' ∧ c.others i h' = [] then none else c.entries.value? h' := by
  rcases leave_cases c i h with ⟨h₁, e⟩ | e
  · rw [leave_of_leaves e, entries_detach]
    by_cases hh : h₁ = h'
    · subst hh; simp only [e, true_and]; rfl
    · rw [if_neg fun e' => hh e'.1, if_neg fun e' => hh (e.unique e'.1)]
  · rw [leave_of_stays e, if_neg fun e' => e h' e'.1]

theorem NoEmptyList.leave (hn : c.NoEmptyList) (i : String) (h : UInt64) :
    (c.leave i h).NoEmptyList := by
  rcases leave_cases c i h with ⟨h₁, e⟩ | e
  · have hn' : NoEmptyList { c with hashByIdentity := c.hashByIdentity.assign i h } := hn
    rw [leave_of_leaves e]
    exact hn'.detach i h₁
  · rw [leave_of_stays e]; exact hn

@[simp] theorem counters_leave (c : ReflectionCache) (i : String) (h : UInt64) :
    (c.leave i h).counters = c.counters := by
  rcases leave_cases c i h with ⟨h', e⟩ | e
  · rw [leave_of_leaves e, counters_detach]; rfl
  · rw [leave_of_stays e]; rfl

@[simp] theorem counters_join (c : ReflectionCache) (i : String) (h : UInt64) :
    (c.join i h).counters = c.counters := by
  unfold join; split <;> rfl

@[simp] theorem join_hashByIdentity (c : ReflectionCache) (i : String) (h : UInt64) :
    (c.join i h).hashByIdentity = c.hashByIdentity := by
  unfold join; split <;> rfl

@[simp] theorem join_entries (c : ReflectionCache) (i : String) (h : UInt64) :
    (c.join i h).entries = c.entries := by
  unfold join; split <;> rfl

theorem identitiesAt_join (c : ReflectionCache) (i : String) (h h' : UInt64) :
    (c.join i h).identitiesAt h' =
      if h = h' ∧ i ∉ c.identitiesAt h then c.identitiesAt h ++ [i] else c.identitiesAt h' := by
  unfold join
  by_cases hi : i ∈ c.identitiesAt h
  · rw [if_pos (List.contains_iff_mem.2 hi), if_neg fun hh => hh.2 hi]
  · rw [if_neg fun hc => hi (List.contains_iff_mem.1 hc)]
    simp only [identitiesAt, Table.value?_assign] at hi ⊢
    simp only [hi, not_false_eq_true, and_true]
    split <;> rfl

theorem NoEmptyList.join (hn : c.NoEmptyList) (i : String) (h : UInt64) :
    (c.join i h).NoEmptyList := by
  intro h' is hv
  unfold ReflectionCache.join at hv
  split at hv
  · exact hn h' is hv
  · rw [Table.value?_assign] at hv
    split at hv
    · rw [← Option.some.inj hv]; simp
    · exact hn h' is hv

/-- What is coherent but for the entry of a hash, which may have no identity yet. -/
structure Ready (c : ReflectionCache) (h : UInt64) : Prop where
  bound_iff : ∀ i h, c.hashByIdentity.value? i = some h ↔ i ∈ c.identitiesAt h
  nodup : ∀ h, (c.identitiesAt h).Nodup
  noEmptyList : c.NoEmptyList
  live : c.entries.has h = true
  live_iff : ∀ h', h' ≠ h → (c.entries.has h' = true ↔ c.identitiesAt h' ≠ [])

theorem Coherent.ready (hc : c.Coherent) (hl : c.entries.has h = true) : c.Ready h :=
  ⟨hc.bound_iff, hc.nodup, hc.noEmptyList, hl, fun h' _ => hc.has_iff h'⟩

theorem identitiesAt_bind (c : ReflectionCache) (i : String) {h h' : UInt64} (hh : h ≠ h') :
    (c.bind i h).identitiesAt h' =
      if c.Leaves i h h' then c.others i h' else c.identitiesAt h' := by
  rw [bind_eq, identitiesAt_join, if_neg fun e => hh e.1, identitiesAt_leave]

theorem identitiesAt_bind_same (c : ReflectionCache) (i : String) (h : UInt64) :
    (c.bind i h).identitiesAt h =
      if i ∈ c.identitiesAt h then c.identitiesAt h else c.identitiesAt h ++ [i] := by
  have hl : (c.leave i h).identitiesAt h = c.identitiesAt h := by
    rw [identitiesAt_leave, if_neg fun e => e.2 rfl]
  rw [bind_eq, identitiesAt_join, hl]
  by_cases hi : i ∈ c.identitiesAt h
  · rw [if_neg fun e => e.2 hi, if_pos hi]
  · rw [if_pos ⟨rfl, hi⟩, if_neg hi]

theorem entries_bind (c : ReflectionCache) (i : String) (h h' : UInt64) :
    (c.bind i h).entries.value? h' =
      if c.Leaves i h h' ∧ c.others i h' = [] then none else c.entries.value? h' := by
  rw [bind_eq, join_entries, entries_leave]

theorem Ready.mem_identitiesAt_bind (hc : c.Ready h) (i j : String) (h' : UInt64) :
    j ∈ (c.bind i h).identitiesAt h' ↔ if j = i then h' = h else j ∈ c.identitiesAt h' := by
  by_cases hh : h = h'
  · subst hh
    rw [identitiesAt_bind_same]
    by_cases hj : j = i
    · subst hj; split <;> simp_all
    · split <;> simp [hj]
  · rw [identitiesAt_bind c i hh]
    by_cases hj : j = i
    · -- the identity is gone from the hash that it leaves, and was on no other
      subst hj
      rw [if_pos rfl]
      refine iff_of_false (fun hm => ?_) (Ne.symm hh)
      split at hm
      · simp [others] at hm
      · next e => exact e ⟨(hc.bound_iff j h').2 hm, Ne.symm hh⟩
    · rw [if_neg hj]
      split <;> simp [others, hj]

/-- Putting an identity to a hash with an entry makes the tables coherent. -/
theorem Ready.coherent_bind (hc : c.Ready h) (i : String) : (c.bind i h).Coherent := by
  have hn : (c.bind i h).NoEmptyList := by
    rw [bind_eq]; exact (hc.noEmptyList.leave i h).join i h
  refine ⟨fun j h' => ?_, fun h' => ?_, hn, fun h' => ?_⟩
  · -- identities and lists
    rw [hc.mem_identitiesAt_bind, bind_eq, join_hashByIdentity, leave_hashByIdentity,
      Table.value?_assign]
    by_cases hj : j = i
    · subst hj; simp [eq_comm]
    · rw [if_neg (Ne.symm hj), if_neg hj, hc.bound_iff]
  · by_cases hh : h = h'
    · subst hh
      rw [identitiesAt_bind_same]
      split
      · exact hc.nodup h
      · next hi => exact List.Nodup.append (hc.nodup h) (List.nodup_singleton i) (by simpa using hi)
    · rw [identitiesAt_bind c i hh]
      split
      · exact (hc.nodup h').filter _
      · exact hc.nodup h'
  · -- entries and lists
    rw [hn.mem_keys_iff, Table.mem_keys_iff, Table.has, entries_bind]
    by_cases hh : h = h'
    · subst hh
      -- the entry of `h` stays, and the identity is on its list
      have hi : i ∈ (c.bind i h).identitiesAt h := by simp [hc.mem_identitiesAt_bind]
      rw [if_neg fun e => e.1.2 rfl]
      exact iff_of_true hc.live (List.ne_nil_of_mem hi)
    · rw [identitiesAt_bind c i hh]
      by_cases e : c.Leaves i h h'
      · have hl := (hc.live_iff h' (Ne.symm hh)).2 (List.ne_nil_of_mem ((hc.bound_iff i h').1 e.1))
        by_cases ho : c.others i h' = []
        · simp [e, ho]
        · rw [if_neg fun e' => ho e'.2, if_pos e]
          exact iff_of_true hl ho
      · rw [if_neg fun e' => e e'.1, if_neg e]
        exact hc.live_iff h' (Ne.symm hh)

@[simp] theorem counters_bind (c : ReflectionCache) (i : String) (h : UInt64) :
    (c.bind i h).counters = c.counters := by
  rw [bind_eq, counters_join, counters_leave]

/-! ### Looking up -/

variable {reflect : Reflector} {code : Bytecode} {bs : List Binding}

/-- An entry is found: only its identities change. -/
theorem getOrReflect_hit (hv : c.entries.value? (contentHash code.bytes) = some bs) :
    c.getOrReflect reflect code i =
      let c' := if c.hashByIdentity.value? i = some (contentHash code.bytes) then c
        else c.bind i (contentHash code.bytes)
      ⟨.ok bs, false, { c' with hits := c'.hits + 1 }⟩ := by
  simp only [getOrReflect, hv]

/-- No entry is found, and the reflector fails: a miss is counted. -/
theorem getOrReflect_failed {reason : String}
    (hv : c.entries.value? (contentHash code.bytes) = none) (hr : reflect code = .error reason) :
    c.getOrReflect reflect code i =
      ⟨.error (.reflection i reason), true, { c with misses := c.misses + 1 }⟩ := by
  simp only [getOrReflect, hv, hr]

/-- No entry is found: what the reflector finds becomes the entry. -/
theorem getOrReflect_found (hv : c.entries.value? (contentHash code.bytes) = none)
    (hr : reflect code = .ok bs) :
    c.getOrReflect reflect code i =
      ⟨.ok bs, true, { c with
          misses  := c.misses + 1
          entries := c.entries.assign (contentHash code.bytes) bs
        }.bind i (contentHash code.bytes)⟩ := by
  simp only [getOrReflect, hv, hr]

theorem Coherent.getOrReflect (hc : c.Coherent) (reflect : Reflector) (code : Bytecode)
    (i : String) : (c.getOrReflect reflect code i).cache.Coherent := by
  cases hv : c.entries.value? (contentHash code.bytes) with
  | some bs =>
      have hl : c.entries.has (contentHash code.bytes) = true := Table.has_iff.2 ⟨bs, hv⟩
      rw [getOrReflect_hit hv]
      dsimp only
      split
      · exact ⟨hc.bound_iff, hc.nodup, hc.noEmptyList, hc.live_iff⟩
      · have hb := (hc.ready hl).coherent_bind i
        exact ⟨hb.bound_iff, hb.nodup, hb.noEmptyList, hb.live_iff⟩
  | none =>
      cases hr : reflect code with
      | error reason =>
          rw [getOrReflect_failed hv hr]
          exact ⟨hc.bound_iff, hc.nodup, hc.noEmptyList, hc.live_iff⟩
      | ok bs =>
          rw [getOrReflect_found hv hr]
          have hready : Ready { c with
                misses  := c.misses + 1
                entries := c.entries.assign (contentHash code.bytes) bs
              } (contentHash code.bytes) := by
            refine ⟨hc.bound_iff, hc.nodup, hc.noEmptyList, ?_, fun h' hh => ?_⟩
            · simp [Table.has_assign]
            · rw [Table.has_assign, decide_eq_false (Ne.symm hh), Bool.false_or]
              exact hc.has_iff h'
          exact hready.coherent_bind i

/-! ### Forgetting an identity -/

/-- An identity is the last one at its hash exactly when nobody else is on the list. -/
theorem Coherent.others_eq_nil_iff (hc : c.Coherent) (hi : i ∈ c.identitiesAt h) :
    c.others i h = [] ↔ c.identitiesAt h = [i] := by
  constructor
  · intro ho
    have hall : ∀ j ∈ c.identitiesAt h, j = i := fun j hj => by
      by_contra hne
      have : j ∈ c.others i h := by simp [others, hj, hne]
      simp [ho] at this
    have hd := hc.nodup h
    match hl : c.identitiesAt h with
    | [] => simp [hl] at hi
    | [j] => rw [hall j (by simp [hl])]
    | j :: k :: js =>
        have hj := hall j (by simp [hl])
        have hk := hall k (by simp [hl])
        simp [hl, hj, hk] at hd
  · intro hl
    simp [others, hl]

theorem invalidate_unknown (hv : c.hashByIdentity.value? i = none) :
    c.invalidate i = (false, c) := by
  simp only [invalidate, hv]

theorem invalidate_known (hv : c.hashByIdentity.value? i = some h) :
    c.invalidate i =
      { c with hashByIdentity := c.hashByIdentity.without i }.detach i h := by
  simp only [invalidate, hv]

theorem Coherent.invalidate (hc : c.Coherent) (i : String) : (c.invalidate i).2.Coherent := by
  cases hv : c.hashByIdentity.value? i with
  | none => rw [invalidate_unknown hv]; exact hc
  | some h =>
      have hi := (hc.bound_iff i h).1 hv
      have hn : NoEmptyList { c with hashByIdentity := c.hashByIdentity.without i } :=
        hc.noEmptyList
      have hm := hn.detach i h
      rw [invalidate_known hv]
      refine ⟨fun j h' => ?_, fun h' => ?_, hm, fun h' => ?_⟩
      · -- identities and lists
        rw [detach_hashByIdentity, Table.value?_without, identitiesAt_detach]
        by_cases hj : i = j
        · subst hj
          rw [if_pos rfl]
          refine iff_of_false (by simp) fun hm => ?_
          split at hm
          · simp [others] at hm
          · next hh => exact hh (Option.some.inj (hv.symm.trans ((hc.bound_iff i h').2 hm)))
        · rw [if_neg hj, hc.bound_iff]
          split
          · next hh => subst hh; simp [others, identitiesAt, Ne.symm hj]
          · rfl
      · rw [identitiesAt_detach]
        split
        · exact (hc.nodup h).filter _
        · exact hc.nodup h'
      · -- entries and lists
        rw [hm.mem_keys_iff, Table.mem_keys_iff, Table.has, entries_detach, identitiesAt_detach]
        by_cases hh : h = h'
        · subst hh
          by_cases ho : others { c with hashByIdentity := c.hashByIdentity.without i } i h = []
          · simp [ho]
          · rw [if_neg fun e => ho e.2, if_pos rfl]
            exact iff_of_true ((hc.has_iff h).2 (List.ne_nil_of_mem hi)) ho
        · rw [if_neg fun e => hh e.1, if_neg hh]
          exact hc.has_iff h'

/-- What an invalidation does: it says whether the identity was the last one of its entry, drops
that entry and no other, and forgets that identity and no other. -/
structure Forgetting (c : ReflectionCache) (i : String) : Prop where
  dropped_iff : (c.invalidate i).1 = true ↔ ∃ h, c.identitiesAt h = [i]
  entries : ∀ h, (c.invalidate i).2.entries.value? h =
    if c.identitiesAt h = [i] then none else c.entries.value? h
  identities : ∀ j, (c.invalidate i).2.hashByIdentity.value? j =
    if i = j then none else c.hashByIdentity.value? j
  counters : (c.invalidate i).2.counters = c.counters

theorem Coherent.forgetting (hc : c.Coherent) (i : String) : c.Forgetting i := by
  cases hv : c.hashByIdentity.value? i with
  | none =>
      -- an unknown identity is on no list
      have hno : ∀ h, c.identitiesAt h ≠ [i] := fun h hl => by
        have hb := (hc.bound_iff i h).2 (by simp [hl])
        rw [hv] at hb; cases hb
      have e := invalidate_unknown hv
      refine ⟨?_, fun h => ?_, fun j => ?_, by rw [e]⟩
      · rw [e]; exact iff_of_false (by simp) fun ⟨h, hl⟩ => hno h hl
      · rw [e, if_neg (hno h)]
      · rw [e]
        split
        · next hj => exact hj ▸ hv
        · rfl
  | some h =>
      have hi := (hc.bound_iff i h).1 hv
      -- `i` is on no other list
      have hat : ∀ h', c.identitiesAt h' = [i] → h = h' := fun h' hl =>
        Option.some.inj (hv.symm.trans ((hc.bound_iff i h').2 (by simp [hl])))
      have ho : others { c with hashByIdentity := c.hashByIdentity.without i } i h = [] ↔
          c.identitiesAt h = [i] := hc.others_eq_nil_iff hi
      have e := invalidate_known hv
      refine ⟨?_, fun h' => ?_, fun j => ?_, by rw [e, counters_detach]; rfl⟩
      · rw [e, detach_dropped, ho]
        have hl := (hc.has_iff h).2 (List.ne_nil_of_mem hi)
        exact ⟨fun hd => ⟨h, hd.1⟩, fun ⟨h', hd⟩ => ⟨hat h' hd ▸ hd, hl⟩⟩
      · rw [e, entries_detach]
        by_cases hl : c.identitiesAt h' = [i]
        · obtain rfl := hat h' hl
          rw [if_pos ⟨rfl, ho.2 hl⟩, if_pos hl]
        · rw [if_neg hl, if_neg]
          rintro ⟨rfl, hd⟩
          exact hl (ho.1 hd)
      · rw [e, detach_hashByIdentity, Table.value?_without]

/-! ### Runs -/

/-- A request to a cache. -/
inductive Request where
  | lookUp (reflect : Reflector) (code : Bytecode) (identity : String)
  | invalidate (identity : String)
  | clear

/-- A cache with what has happened to it. -/
structure History where
  cache   : ReflectionCache := {}
  /-- The code that reflectors were asked about with success, and what they found in it. -/
  found   : List (Bytecode × List Binding) := []
  /-- The number of look-ups. -/
  lookUps : Nat := 0

namespace History

/-- What a call of a reflector adds to what was found. -/
def answers (reflect : Reflector) (code : Bytecode) : List (Bytecode × List Binding) :=
  match reflect code with
  | .ok bs   => [(code, bs)]
  | .error _ => []

/-- One more request. -/
def after (t : History) : Request → History
  | .lookUp reflect code i =>
    let a := t.cache.getOrReflect reflect code i
    { cache   := a.cache
      found   := if a.asked then t.found ++ answers reflect code else t.found
      lookUps := t.lookUps + 1 }
  | .invalidate i => { t with cache := (t.cache.invalidate i).2 }
  | .clear        => { t with cache := t.cache.clear }

/-- Requests to a cache that starts empty. -/
def ofRequests (rs : List Request) : History := rs.foldl after {}

/-- Every entry is what a reflector found in code of its hash. -/
def Sound (t : History) : Prop :=
  ∀ h bs, t.cache.entries.value? h = some bs →
    ∃ code, contentHash code.bytes = h ∧ (code, bs) ∈ t.found

/-- What the next look-up answers, and when it asks the reflector. -/
structure LookUp (t : History) (reflect : Reflector) (code : Bytecode) (i : String) : Prop where
  /-- Bindings are those that some reflector of the run found in code of this hash. -/
  ok : ∀ bs, (t.cache.getOrReflect reflect code i).result = .ok bs →
    ∃ code', contentHash code'.bytes = contentHash code.bytes ∧
      (code', bs) ∈ (t.after (.lookUp reflect code i)).found
  /-- The reflector is asked exactly when the hash has no entry. -/
  asked_iff : (t.cache.getOrReflect reflect code i).asked = true ↔
    contentHash code.bytes ∉ t.cache.entries.keys
  /-- A reflector that is not asked has no say. -/
  unasked : (t.cache.getOrReflect reflect code i).asked = false →
    ∀ reflect', t.cache.getOrReflect reflect' code i = t.cache.getOrReflect reflect code i
  /-- A reflector that is asked decides the answer. -/
  answer : (t.cache.getOrReflect reflect code i).asked = true →
    (t.cache.getOrReflect reflect code i).result = (reflect code).mapError (.reflection i)
  /-- A failure changes the number of misses, and nothing else. -/
  failed : ∀ e, (t.cache.getOrReflect reflect code i).result = .error e →
    (t.cache.getOrReflect reflect code i).cache = { t.cache with misses := t.cache.misses + 1 }

theorem answers_of_ok (hr : reflect code = .ok bs) : answers reflect code = [(code, bs)] := by
  simp only [answers, hr]

theorem found_of_hit {t : History}
    (hv : t.cache.entries.value? (contentHash code.bytes) = some bs) :
    (t.after (.lookUp reflect code i)).found = t.found := by
  simp [after, getOrReflect_hit hv]

theorem found_of_found {t : History} (hv : t.cache.entries.value? (contentHash code.bytes) = none)
    (hr : reflect code = .ok bs) :
    (t.after (.lookUp reflect code i)).found = t.found ++ [(code, bs)] := by
  simp [after, getOrReflect_found hv hr, answers_of_ok hr]

/-- Nothing that was found is forgotten. -/
theorem found_subset_after (t : History) (r : Request) : t.found ⊆ (t.after r).found := by
  cases r with
  | lookUp reflect code i =>
      simp only [after]
      split
      · exact List.subset_append_left _ _
      · exact List.Subset.refl _
  | invalidate i => exact List.Subset.refl _
  | clear => exact List.Subset.refl _

theorem Sound.lookUp {t : History} (ht : t.Sound) (reflect : Reflector) (code : Bytecode)
    (i : String) : t.LookUp reflect code i := by
  cases hv : t.cache.entries.value? (contentHash code.bytes) with
  | some bs =>
      have hl : t.cache.entries.has (contentHash code.bytes) = true := Table.has_iff.2 ⟨bs, hv⟩
      have e := fun r : Reflector => @getOrReflect_hit t.cache i r code bs hv
      refine ⟨fun bs' hb => ?_, ?_, fun _ reflect' => ?_, fun ha => ?_, fun e' he => ?_⟩
      · rw [e] at hb
        obtain rfl := Except.ok.inj hb
        rw [found_of_hit hv]
        exact ht _ _ hv
      · rw [e, Table.mem_keys_iff]
        exact iff_of_false (by simp) fun hn => hn hl
      · rw [e, e]
      · rw [e] at ha; cases ha
      · rw [e] at he; cases he
  | none =>
      have hl : contentHash code.bytes ∉ t.cache.entries.keys := by
        rw [Table.mem_keys_iff, Table.has, hv]; simp
      cases hr : reflect code with
      | error reason =>
          have e := getOrReflect_failed (i := i) hv hr
          refine ⟨fun bs hb => ?_, ?_, fun ha => ?_, fun _ => ?_, fun e' _ => ?_⟩
          · rw [e] at hb; cases hb
          · rw [e]; exact iff_of_true rfl hl
          · rw [e] at ha; cases ha
          · rw [e, hr]; rfl
          · rw [e]
      | ok bs =>
          have e := getOrReflect_found (i := i) hv hr
          refine ⟨fun bs' hb => ?_, ?_, fun ha => ?_, fun _ => ?_, fun e' he => ?_⟩
          · rw [e] at hb
            obtain rfl := Except.ok.inj hb
            rw [found_of_found hv hr]
            exact ⟨code, rfl, by simp⟩
          · rw [e]; exact iff_of_true rfl hl
          · rw [e] at ha; cases ha
          · rw [e, hr]; rfl
          · rw [e] at he; cases he

theorem Sound.after_lookUp {t : History} (ht : t.Sound) (reflect : Reflector) (code : Bytecode)
    (i : String) : (t.after (.lookUp reflect code i)).Sound := by
  have hsub := found_subset_after t (.lookUp reflect code i)
  -- entries of before may go and do not change, so what was found for them serves
  have keep : ∀ c : ReflectionCache, (∀ h bs, c.entries.value? h = some bs →
      t.cache.entries.value? h = some bs) → ∀ h bs, c.entries.value? h = some bs →
      ∃ code', contentHash code'.bytes = h ∧
        (code', bs) ∈ (t.after (.lookUp reflect code i)).found :=
    fun c hc h bs hb => by
      obtain ⟨code', hh, hm⟩ := ht h bs (hc h bs hb)
      exact ⟨code', hh, hsub hm⟩
  cases hv : t.cache.entries.value? (contentHash code.bytes) with
  | some bs =>
      refine keep _ fun h bs' hb => ?_
      simp only [after, getOrReflect_hit hv] at hb
      split at hb
      · exact hb
      · rw [entries_bind] at hb
        split at hb
        · cases hb
        · exact hb
  | none =>
      cases hr : reflect code with
      | error reason =>
          refine keep _ fun h bs' hb => ?_
          simpa only [after, getOrReflect_failed hv hr] using hb
      | ok bs =>
          -- the new entry is what was found just now
          intro h bs' hb
          simp only [after, getOrReflect_found hv hr] at hb
          rw [entries_bind] at hb
          split at hb
          · cases hb
          · rw [Table.value?_assign] at hb
            split at hb
            · next hh =>
                rw [found_of_found hv hr, ← Option.some.inj hb]
                exact ⟨code, hh, by simp⟩
            · exact keep t.cache (fun _ _ => id) h bs' hb

theorem Sound.after_invalidate {t : History} (hc : t.cache.Coherent) (ht : t.Sound) (i : String) :
    (t.after (.invalidate i)).Sound := by
  intro h bs hb
  simp only [after, (hc.forgetting i).entries h] at hb
  split at hb
  · cases hb
  · exact ht h bs hb

/-- The look-ups are the hits and the misses. -/
theorem counters_after_lookUp (t : History) (reflect : Reflector) (code : Bytecode) (i : String) :
    (t.after (.lookUp reflect code i)).cache.hits +
      (t.after (.lookUp reflect code i)).cache.misses = t.cache.hits + t.cache.misses + 1 := by
  cases hv : t.cache.entries.value? (contentHash code.bytes) with
  | some bs =>
      simp only [after, getOrReflect_hit hv]
      split
      · omega
      · obtain ⟨hh, hm⟩ := Prod.ext_iff.1 (counters_bind t.cache i (contentHash code.bytes))
        simp only [counters] at hh hm
        omega
  | none =>
      cases hr : reflect code with
      | error reason =>
          simp only [after, getOrReflect_failed hv hr]
          omega
      | ok bs =>
          simp only [after, getOrReflect_found hv hr]
          obtain ⟨hh, hm⟩ := Prod.ext_iff.1 (counters_bind { t.cache with
            misses  := t.cache.misses + 1
            entries := t.cache.entries.assign (contentHash code.bytes) bs } i
              (contentHash code.bytes))
          simp only [counters] at hh hm
          omega

/-- What every request keeps. -/
structure Kept (t : History) : Prop where
  coherent : t.cache.Coherent
  sound    : t.Sound
  lookUps  : t.cache.hits + t.cache.misses = t.lookUps

theorem Kept.empty : Kept {} := by
  refine ⟨Coherent.empty, fun h bs hb => ?_, rfl⟩
  simp at hb

theorem Kept.after {t : History} (ht : t.Kept) (r : Request) : (t.after r).Kept := by
  cases r with
  | lookUp reflect code i =>
      refine ⟨ht.coherent.getOrReflect reflect code i, ht.sound.after_lookUp reflect code i, ?_⟩
      rw [counters_after_lookUp, ht.lookUps]
      rfl
  | invalidate i =>
      refine ⟨ht.coherent.invalidate i, ht.sound.after_invalidate ht.coherent i, ?_⟩
      obtain ⟨hh, hm⟩ := Prod.ext_iff.1 (ht.coherent.forgetting i).counters
      simp only [ReflectionCache.counters] at hh hm
      simp only [History.after, hh, hm]
      exact ht.lookUps
  | clear =>
      refine ⟨?_, fun h bs hb => ?_, ht.lookUps⟩
      · exact ⟨Coherent.empty.bound_iff, Coherent.empty.nodup, Coherent.empty.noEmptyList,
          Coherent.empty.live_iff⟩
      · simp [History.after, ReflectionCache.clear] at hb

theorem kept_ofRequests (rs : List Request) : (ofRequests rs).Kept := by
  induction rs using List.reverseRecOn with
  | nil => exact Kept.empty
  | append_singleton rs r ih =>
      rw [ofRequests, List.foldl_append]
      exact Kept.after ih r

/-- After every run of requests the tables agree, the next look-up answers what a reflector of the
run found in code of the same hash, the next invalidation drops the entries that it must and no
other, and the counters count the look-ups. -/
theorem lawful (rs : List Request) :
    (ofRequests rs).cache.Coherent ∧
    (∀ reflect code i, (ofRequests rs).LookUp reflect code i) ∧
    (∀ i, (ofRequests rs).cache.Forgetting i) ∧
    (ofRequests rs).cache.hits + (ofRequests rs).cache.misses = (ofRequests rs).lookUps := by
  have hk := kept_ofRequests rs
  exact ⟨hk.coherent, hk.sound.lookUp, hk.coherent.forgetting, hk.lookUps⟩

end History

end ReflectionCache

end RenderMaterials
