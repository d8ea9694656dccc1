import RenderMaterials.Pipeline.Cache
import Mathlib.Data.List.Induction

/-!
# Pipeline cache — runs

A pipeline is kept under its own key.  The key belongs to one origin from then on: a pipeline of
another origin is refused there, until the one that is kept is dropped.

* `stored`: the four things that can become of a pipeline that is to be kept.
* `storing`, `Keyed.dropping`: what one store and one invalidation do to every look-up.
* `History.get_iff`: a look-up finds the pipeline of the last store that succeeded under the key,
  as long as nothing has dropped it.
* `History.Kept.get_of_spared`: only an invalidation or a clear makes a key go to another origin.
* `History.Kept.after`: each request keeps the entries keyed and the counts in balance.
* `History.balanced`: what holds after every run of requests.
-/

namespace RenderMaterials

theorem CompiledPipeline.sameOrigin_iff {p q : CompiledPipeline} : p.sameOrigin q = true ↔
    p.material = q.material ∧ p.pass? = q.pass? ∧ p.renderPass = q.renderPass := by
  simp [sameOrigin, and_assoc]

theorem CompiledPipeline.sameOrigin_trans {p q r : CompiledPipeline} (h : p.sameOrigin q = true)
    (h' : q.sameOrigin r = true) : p.sameOrigin r = true := by
  obtain ⟨hm, hp, hr⟩ := sameOrigin_iff.1 h
  obtain ⟨hm', hp', hr'⟩ := sameOrigin_iff.1 h'
  exact sameOrigin_iff.2 ⟨hm.trans hm', hp.trans hp', hr.trans hr'⟩

theorem CompiledPipeline.sameOrigin_symm {p q : CompiledPipeline} (h : p.sameOrigin q = true) :
    q.sameOrigin p = true := by
  obtain ⟨hm, hp, hr⟩ := sameOrigin_iff.1 h
  exact sameOrigin_iff.2 ⟨hm.symm, hp.symm, hr.symm⟩

/-- Two origins differ in the material, the pass or the render pass. -/
theorem CompiledPipeline.sameOrigin_eq_false_iff {p q : CompiledPipeline} :
    p.sameOrigin q = false ↔
      p.material ≠ q.material ∨ p.pass? ≠ q.pass? ∨ p.renderPass ≠ q.renderPass := by
  rw [← Bool.not_eq_true, sameOrigin_iff]
  simp only [ne_eq, not_and_or]

namespace PipelineCache

variable {c : PipelineCache} {p q : CompiledPipeline} {h : PipelineHash}

/-! ### Keys -/

/-- Each pipeline is kept under its own key, a key keeps one pipeline, and the key that stands for
no pipeline keeps none. -/
structure Keyed (c : PipelineCache) : Prop where
  own   : ∀ k p, (k, p) ∈ c.entries → p.hash.value = k
  valid : ∀ k p, (k, p) ∈ c.entries → k ≠ 0
  nodup : c.entries.keys.Nodup

theorem keyed_of_entries_eq_nil (h : c.entries = []) : c.Keyed := by
  refine ⟨fun k p hp => ?_, fun k p hp => ?_, ?_⟩
  · simp [h] at hp
  · simp [h] at hp
  · simp [h, Table.keys]

@[simp] theorem get_fst (c : PipelineCache) (h : PipelineHash) :
    (c.get h).1 = c.entries.value? h.value := by
  unfold get
  cases c.entries.value? h.value <;> rfl

@[simp] theorem entries_get (c : PipelineCache) (h : PipelineHash) :
    (c.get h).2.entries = c.entries := by
  unfold get
  cases c.entries.value? h.value <;> rfl

theorem hash_value_ne {h h' : PipelineHash} (hne : h ≠ h') : h.value ≠ h'.value :=
  fun e => hne (congrArg PipelineHash.mk e)

/-- What a look-up finds has the key that was looked for. -/
theorem Keyed.hash_of_get (hc : c.Keyed) (hp : (c.get h).1 = some p) : p.hash = h := by
  rw [get_fst] at hp
  exact congrArg PipelineHash.mk (hc.own h.value p (Table.mem_of_value? hp))

/-! ### Storing -/

/-- What becomes of a pipeline that is to be kept. -/
inductive Stored (c : PipelineCache) (p : CompiledPipeline) :
    Except MaterialError CompiledPipeline × PipelineCache → Prop
  /-- Its key stands for no pipeline. -/
  | invalid : p.hash = .invalid →
      Stored c p (.error (.invalidPipelineHash p.material p.passLabel), c)
  /-- Its key belongs to another origin. -/
  | taken {q : CompiledPipeline} : p.hash ≠ .invalid → (c.get p.hash).1 = some q →
      q.sameOrigin p = false →
      Stored c p (.error (.hashCollision p.hash.value q.material q.passLabel p.material
        p.passLabel), c)
  /-- Its key is free. -/
  | new : p.hash ≠ .invalid → (c.get p.hash).1 = none →
      Stored c p (.ok p, { c with entries := c.entries.assign p.hash.value p })
  /-- Its key belongs to its own origin. -/
  | refreshed {q : CompiledPipeline} : p.hash ≠ .invalid → (c.get p.hash).1 = some q →
      q.sameOrigin p = true →
      Stored c p (.ok p, { c with
        entries   := c.entries.assign p.hash.value p
        refreshes := c.refreshes + 1 })

theorem stored (c : PipelineCache) (p : CompiledPipeline) : Stored c p (c.store p) := by
  unfold store
  split
  · next hv => exact .invalid (by simpa [PipelineHash.isValid] using hv)
  · next hv =>
      have hv' : p.hash ≠ .invalid := by simpa [PipelineHash.isValid] using hv
      dsimp only
      split
      · next hn => exact .new hv' (by rw [get_fst, hn])
      · next q hq =>
          split
          · next ho => exact .refreshed hv' (by rw [get_fst, hq]) ho
          · next ho => exact .taken hv' (by rw [get_fst, hq]) (by simpa using ho)

/-- What storing a pipeline does to a cache. -/
structure Storing (c : PipelineCache) (p : CompiledPipeline) : Prop where
  /-- It is refused exactly when its key stands for no pipeline or belongs to another origin. -/
  refused_iff : (∃ e, (c.store p).1 = .error e) ↔ p.hash = .invalid ∨
    ∃ q, (c.get p.hash).1 = some q ∧
      (q.material ≠ p.material ∨ q.pass? ≠ p.pass? ∨ q.renderPass ≠ p.renderPass)
  /-- A refusal says why, and changes nothing. -/
  refused : ∀ e, (c.store p).1 = .error e → (c.store p).2 = c ∧
    (p.hash = .invalid ∧ e = .invalidPipelineHash p.material p.passLabel ∨
      ∃ q, (c.get p.hash).1 = some q ∧
        e = .hashCollision p.hash.value q.material q.passLabel p.material p.passLabel)
  /-- A pipeline that is not refused is found under its key, and other keys are as they were. -/
  accepted : ∀ q, (c.store p).1 = .ok q → q = p ∧
    ∀ h, ((c.store p).2.get h).1 = if p.hash = h then some p else (c.get h).1

theorem get_assign (c : PipelineCache) (p : CompiledPipeline) (h : PipelineHash) :
    (c.entries.assign p.hash.value p).value? h.value =
      if p.hash = h then some p else c.entries.value? h.value := by
  rw [Table.value?_assign]
  by_cases e : p.hash = h
  · rw [if_pos e, if_pos (congrArg PipelineHash.value e)]
  · rw [if_neg e, if_neg (hash_value_ne e)]

theorem storing (c : PipelineCache) (p : CompiledPipeline) : c.Storing p := by
  have hs := stored c p
  generalize hr : c.store p = r at hs
  cases hs with
  | invalid hv =>
      refine ⟨?_, fun e he => ?_, fun q hq => ?_⟩
      · rw [hr]; exact iff_of_true ⟨_, rfl⟩ (.inl hv)
      · rw [hr] at he ⊢; exact ⟨rfl, .inl ⟨hv, (Except.error.inj he).symm⟩⟩
      · rw [hr] at hq; cases hq
  | @taken q hv hq ho =>
      refine ⟨?_, fun e he => ?_, fun q' hq' => ?_⟩
      · rw [hr]
        exact iff_of_true ⟨_, rfl⟩ (.inr ⟨q, hq, CompiledPipeline.sameOrigin_eq_false_iff.1 ho⟩)
      · rw [hr] at he ⊢; exact ⟨rfl, .inr ⟨q, hq, (Except.error.inj he).symm⟩⟩
      · rw [hr] at hq'; cases hq'
  | new hv hn =>
      refine ⟨?_, fun e he => ?_, fun q hq => ?_⟩
      · rw [hr, hn]; exact iff_of_false (by simp) (by simp [hv])
      · rw [hr] at he; cases he
      · rw [hr] at hq ⊢
        exact ⟨(Except.ok.inj hq).symm, fun h => by rw [get_fst, get_assign, get_fst]⟩
  | @refreshed q hv hq ho =>
      refine ⟨?_, fun e he => ?_, fun q' hq' => ?_⟩
      · rw [hr, hq]
        refine iff_of_false (by simp) ?_
        rintro (hv' | ⟨q', hq', ho'⟩)
        · exact hv hv'
        · obtain rfl := Option.some.inj hq'
          rw [CompiledPipeline.sameOrigin_eq_false_iff.2 ho'] at ho
          cases ho
      · rw [hr] at he; cases he
      · rw [hr] at hq' ⊢
        exact ⟨(Except.ok.inj hq').symm, fun h => by rw [get_fst, get_assign, get_fst]⟩

/-- Only a pipeline of the same origin takes the place of one that is kept. -/
theorem sameOrigin_of_store (hq : (c.store q).1 = .ok q) (hp : (c.get q.hash).1 = some p) :
    p.sameOrigin q = true := by
  by_contra hne
  rw [Bool.not_eq_true, CompiledPipeline.sameOrigin_eq_false_iff] at hne
  obtain ⟨e, he⟩ := (storing c q).refused_iff.2 (.inr ⟨p, hp, hne⟩)
  rw [hq] at he
  cases he

theorem Keyed.assign (hc : c.Keyed) (hv : p.hash ≠ .invalid) {c' : PipelineCache}
    (he : c'.entries = c.entries.assign p.hash.value p) : c'.Keyed := by
  refine ⟨fun k q hq => ?_, fun k q hq => ?_, ?_⟩
  · rw [he] at hq
    rcases Table.mem_assign hq with hq | hq
    · exact hc.own k q hq
    · obtain ⟨rfl, rfl⟩ := Prod.mk.inj hq
      rfl
  · rw [he] at hq
    rcases Table.mem_assign hq with hq | hq
    · exact hc.valid k q hq
    · obtain ⟨rfl, rfl⟩ := Prod.mk.inj hq
      exact hash_value_ne hv
  · rw [he]
    exact Table.nodup_keys_assign hc.nodup _ _

theorem Keyed.store (hc : c.Keyed) (p : CompiledPipeline) : (c.store p).2.Keyed := by
  have hs := stored c p
  generalize c.store p = r at hs ⊢
  cases hs with
  | invalid _ => exact hc
  | taken _ _ _ => exact hc
  | new hv _ => exact hc.assign hv rfl
  | refreshed hv _ _ => exact hc.assign hv rfl

/-! ### Dropping -/

/-- What an invalidation does: it drops the pipelines of the material and no others, says how many
these were, and leaves the counters. -/
structure Dropping (c : PipelineCache) (material : String) : Prop where
  entries  : ∀ k p, (k, p) ∈ (c.invalidate material).2.entries ↔
    (k, p) ∈ c.entries ∧ p.material ≠ material
  get      : ∀ h p, ((c.invalidate material).2.get h).1 = some p ↔
    (c.get h).1 = some p ∧ p.material ≠ material
  dropped  : (c.invalidate material).1 = c.entries.countP (·.2.material = material)
  balance  : (c.invalidate material).1 + (c.invalidate material).2.entries.length =
    c.entries.length
  counters : (c.invalidate material).2 =
    { c with entries := (c.invalidate material).2.entries }

theorem Keyed.dropping (hc : c.Keyed) (material : String) : c.Dropping material := by
  have hlen := List.length_eq_countP_add_countP (l := c.entries) (·.2.material ≠ material)
  have hkept := List.countP_eq_length_filter (l := c.entries) (p := (·.2.material ≠ material))
  refine ⟨fun k p => ?_, fun h p => ?_, ?_, ?_, rfl⟩
  · simp [invalidate]
  · rw [get_fst, get_fst]
    exact (Table.value?_filter_iff hc.nodup).trans (by simp)
  · simp only [invalidate]
    rw [← hkept, hlen, Nat.add_sub_cancel_left]
    simp
  · simp only [invalidate]
    exact Nat.sub_add_cancel (List.length_filter_le _ _)

theorem Keyed.invalidate (hc : c.Keyed) (material : String) : (c.invalidate material).2.Keyed := by
  have hd := hc.dropping material
  refine ⟨fun k p hp => ?_, fun k p hp => ?_, Table.nodup_keys_filter hc.nodup _⟩
  · exact hc.own k p ((hd.entries k p).1 hp).1
  · exact hc.valid k p ((hd.entries k p).1 hp).1

/-! ### Runs -/

/-- A request to a cache. -/
inductive Request where
  | store (p : CompiledPipeline)
  | get (h : PipelineHash)
  | invalidate (material : String)
  | clear

/-- A cache with what has happened to it. -/
structure History where
  cache   : PipelineCache := {}
  /-- The number of look-ups. -/
  lookUps : Nat := 0
  /-- The number of stores that succeeded. -/
  stores  : Nat := 0
  /-- The number of entries that invalidations and clears have dropped. -/
  dropped : Nat := 0

namespace History

variable {t : History}

/-- One more request. -/
def after (t : History) : Request → History
  | .store p => { t with
      cache  := (t.cache.store p).2
      stores := t.stores + if (t.cache.store p).1.isOk then 1 else 0 }
  | .get h   => { t with
      cache   := (t.cache.get h).2
      lookUps := t.lookUps + 1 }
  | .invalidate material => { t with
      cache   := (t.cache.invalidate material).2
      dropped := t.dropped + (t.cache.invalidate material).1 }
  | .clear   => { t with
      cache   := t.cache.clear
      dropped := t.dropped + t.cache.entries.length }

/-- More requests. -/
def run (t : History) (rs : List Request) : History := rs.foldl after t

/-- Requests to a cache that starts empty. -/
def ofRequests (rs : List Request) : History := run {} rs

theorem ofRequests_append (rs rs' : List Request) :
    ofRequests (rs ++ rs') = (ofRequests rs).run rs' := by
  rw [ofRequests, run, List.foldl_append]
  rfl

/-- What every request keeps. -/
structure Kept (t : History) : Prop where
  keyed   : t.cache.Keyed
  lookUps : t.cache.hits + t.cache.misses = t.lookUps
  /-- Each store that succeeded is kept, was dropped, or put a pipeline in the place of one. -/
  stores  : t.cache.entries.length + t.dropped + t.cache.refreshes = t.stores

theorem Kept.empty : Kept {} := ⟨keyed_of_entries_eq_nil rfl, rfl, rfl⟩

theorem Kept.store (ht : t.Kept) (p : CompiledPipeline) : (t.after (.store p)).Kept := by
  refine ⟨ht.keyed.store p, ?_, ?_⟩
  · have hs := stored t.cache p
    simp only [after]
    generalize t.cache.store p = r at hs ⊢
    cases hs <;> exact ht.lookUps
  · have hs := stored t.cache p
    have hb := ht.stores
    simp only [after]
    generalize t.cache.store p = r at hs ⊢
    cases hs with
    | invalid _ => exact hb
    | taken _ _ _ => exact hb
    | new _ hn =>
        -- one entry more
        have hlen := Table.length_assign t.cache.entries p.hash.value p
        rw [get_fst] at hn
        simp only [Table.has, hn, Option.isSome_none, Bool.false_eq_true, if_false] at hlen
        simp only [hlen, Except.isOk, Except.toBool, if_true]
        omega
    | refreshed _ hq _ =>
        -- as many entries, and one refresh more
        have hlen := Table.length_assign t.cache.entries p.hash.value p
        rw [get_fst] at hq
        simp only [Table.has, hq, Option.isSome_some, if_true] at hlen
        simp only [hlen, Except.isOk, Except.toBool, if_true]
        omega

theorem Kept.get (ht : t.Kept) (h : PipelineHash) : (t.after (.get h)).Kept := by
  have hl := ht.lookUps
  refine ⟨?_, ?_, ?_⟩
  · have hk := ht.keyed
    refine ⟨?_, ?_, ?_⟩ <;> simp only [after, entries_get]
    · exact hk.own
    · exact hk.valid
    · exact hk.nodup
  · simp only [after, PipelineCache.get]
    cases t.cache.entries.value? h.value with
    | none => dsimp only; omega
    | some p => dsimp only; omega
  · simp only [after, PipelineCache.get]
    cases t.cache.entries.value? h.value <;> exact ht.stores

theorem Kept.invalidate (ht : t.Kept) (material : String) :
    (t.after (.invalidate material)).Kept := by
  have hd := (ht.keyed.dropping material).balance
  have hb := ht.stores
  refine ⟨ht.keyed.invalidate material, ht.lookUps, ?_⟩
  change (t.cache.invalidate material).2.entries.length +
    (t.dropped + (t.cache.invalidate material).1) + t.cache.refreshes = t.stores
  omega

theorem Kept.clear (ht : t.Kept) : (t.after .clear).Kept := by
  have hb := ht.stores
  refine ⟨keyed_of_entries_eq_nil rfl, ht.lookUps, ?_⟩
  change 0 + (t.dropped + t.cache.entries.length) + t.cache.refreshes = t.stores
  omega

theorem Kept.after (ht : t.Kept) (r : Request) : (t.after r).Kept := by
  cases r with
  | store p => exact ht.store p
  | get h => exact ht.get h
  | invalidate material => exact ht.invalidate material
  | clear => exact ht.clear

theorem Kept.run (ht : t.Kept) (rs : List Request) : (t.run rs).Kept := by
  induction rs generalizing t with
  | nil => exact ht
  | cons r rs ih => exact ih (ht.after r)

/-! ### How long a pipeline is kept -/

/-- A request that ends the stay of a pipeline. -/
def Ends (c : PipelineCache) (p : CompiledPipeline) : Request → Prop
  | .store q             => q.hash = p.hash ∧ (c.store q).1 = .ok q
  | .get _               => False
  | .invalidate material => material = p.material
  | .clear               => True

/-- Requests none of which ends the stay of a pipeline. -/
def Stays (p : CompiledPipeline) : History → List Request → Prop
  | _, []      => True
  | t, r :: rs => ¬ Ends t.cache p r ∧ Stays p (t.after r) rs

theorem Stays.snoc {rs : List Request} {r : Request} (hs : Stays p t rs)
    (hr : ¬ Ends (t.run rs).cache p r) : Stays p t (rs ++ [r]) := by
  induction rs generalizing t with
  | nil => exact ⟨hr, trivial⟩
  | cons r' rs ih => exact ⟨hs.1, ih hs.2 hr⟩

/-- What one request does to what is found under a key: a store under it that succeeds puts its
pipeline there, a request that ends the stay of the one that is kept takes it away, and others do
nothing. -/
theorem Kept.get_after (ht : t.Kept) (r : Request) :
    ((t.after r).cache.get h).1 = some p ↔
      (r = .store p ∧ p.hash = h ∧ (t.cache.store p).1 = .ok p) ∨
      ((t.cache.get h).1 = some p ∧ ¬ Ends t.cache p r) := by
  -- a pipeline that is found under the key is one of this key
  have hkey : (t.cache.get h).1 = some p → p.hash = h := ht.keyed.hash_of_get
  cases r with
  | store q =>
      have hs := storing t.cache q
      cases hr : (t.cache.store q).1 with
      | error e =>
          have hc : (t.after (.store q)).cache = t.cache := (hs.refused e hr).1
          rw [hc]
          constructor
          · exact fun hp => .inr ⟨hp, fun he => by cases hr.symm.trans he.2⟩
          · rintro (⟨hq, -, hp⟩ | ⟨hp, -⟩)
            · cases hq
              simp [hr] at hp
            · exact hp
      | ok q' =>
          obtain ⟨rfl, hget⟩ := hs.accepted q' hr
          have hc : ((t.after (.store q')).cache.get h).1 =
              if q'.hash = h then some q' else (t.cache.get h).1 := hget h
          rw [hc]
          by_cases hh : q'.hash = h
          · rw [if_pos hh]
            constructor
            · rintro hp
              obtain rfl := Option.some.inj hp
              exact .inl ⟨rfl, hh, hr⟩
            · rintro (⟨hq, -, -⟩ | ⟨hp, hne⟩)
              · cases hq
                rfl
              · exact absurd ⟨hh.trans (hkey hp).symm, hr⟩ hne
          · rw [if_neg hh]
            constructor
            · exact fun hp => .inr ⟨hp, fun he => hh (he.1.trans (hkey hp))⟩
            · rintro (⟨hq, hp, -⟩ | ⟨hp, -⟩)
              · cases hq
                exact absurd hp hh
              · exact hp
  | get h' =>
      simp [History.after, Ends]
  | invalidate material =>
      refine ((ht.keyed.dropping material).get h p).trans ?_
      simp [Ends, eq_comm]
  | clear =>
      simp [History.after, PipelineCache.clear, Ends]

/-- A pipeline stays until a request ends its stay. -/
theorem Kept.get_run_of_stays (ht : t.Kept) {rs : List Request} (hp : (t.cache.get h).1 = some p)
    (hs : Stays p t rs) : ((t.run rs).cache.get h).1 = some p := by
  induction rs generalizing t with
  | nil => exact hp
  | cons r rs ih => exact ih (ht.after r) ((ht.get_after r).2 (.inr ⟨hp, hs.1⟩)) hs.2

theorem kept_ofRequests (rs : List Request) : (ofRequests rs).Kept := Kept.empty.run rs

/-- What a look-up finds was stored under the key, and nothing has ended its stay. -/
theorem get_iff (rs : List Request) (h : PipelineHash) (p : CompiledPipeline) :
    ((ofRequests rs).cache.get h).1 = some p ↔ ∃ before later,
      rs = before ++ .store p :: later ∧ p.hash = h ∧
      ((ofRequests before).cache.store p).1 = .ok p ∧
      Stays p (ofRequests (before ++ [.store p])) later := by
  constructor
  · intro hp
    induction rs using List.reverseRecOn with
    | nil => simp [ofRequests, run] at hp
    | append_singleton rs r ih =>
        rw [ofRequests_append] at hp
        rcases ((kept_ofRequests rs).get_after r).1 hp with ⟨rfl, hh, hok⟩ | ⟨hp, hends⟩
        · exact ⟨rs, [], rfl, hh, hok, trivial⟩
        · obtain ⟨before, later, rfl, hh, hok, hstays⟩ := ih hp
          refine ⟨before, later ++ [r], by simp, hh, hok, hstays.snoc ?_⟩
          rw [← ofRequests_append]
          simpa using hends
  · rintro ⟨before, later, rfl, hh, hok, hstays⟩
    have hk := kept_ofRequests before
    have hp : ((ofRequests (before ++ [.store p])).cache.get h).1 = some p := by
      rw [ofRequests_append]
      exact (hk.get_after _).2 (.inl ⟨rfl, hh, hok⟩)
    have hall := (kept_ofRequests (before ++ [.store p])).get_run_of_stays hp hstays
    rw [← ofRequests_append] at hall
    simpa using hall

/-- As long as nothing is cleared and the material of a pipeline is not invalidated, its key belongs
to its origin. -/
theorem Kept.get_of_spared (ht : t.Kept) {rs : List Request} (hp : (t.cache.get h).1 = some p)
    (hrs : ∀ r ∈ rs, r ≠ .clear ∧ r ≠ .invalidate p.material) :
    ∃ q, ((t.run rs).cache.get h).1 = some q ∧ q.sameOrigin p = true := by
  induction rs generalizing t p with
  | nil => exact ⟨p, hp, CompiledPipeline.sameOrigin_iff.2 ⟨rfl, rfl, rfl⟩⟩
  | cons r rs ih =>
      obtain ⟨hclear, hinvalidate⟩ := hrs r (by simp)
      have hrest := fun r' hr' => hrs r' (List.mem_cons_of_mem r hr')
      by_cases he : Ends t.cache p r
      · -- another pipeline takes its place, which only one of its origin can
        cases r with
        | store q =>
            obtain ⟨hh, hok⟩ := he
            have hkey := hh.trans (ht.keyed.hash_of_get hp)
            have ho := sameOrigin_of_store hok (hkey ▸ hp)
            have hq : ((t.after (.store q)).cache.get h).1 = some q :=
              (ht.get_after _).2 (.inl ⟨rfl, hkey, hok⟩)
            rw [(CompiledPipeline.sameOrigin_iff.1 ho).1] at hrest
            obtain ⟨x, hx, hxo⟩ := ih (ht.after _) hq hrest
            exact ⟨x, hx, CompiledPipeline.sameOrigin_trans hxo
              (CompiledPipeline.sameOrigin_symm ho)⟩
        | get _ => exact he.elim
        | invalidate material => exact absurd (congrArg Request.invalidate he) hinvalidate
        | clear => exact absurd rfl hclear
      · exact ih (ht.after r) ((ht.get_after r).2 (.inr ⟨hp, he⟩)) hrest

/-- After every run of requests each pipeline is kept under its own key, which stands for one.  The
next store is refused exactly when its key stands for none or belongs to another origin, and then
changes nothing; what it keeps is found until a store under the key succeeds or it is dropped, and
nothing else is found; its key stays with its origin until it is dropped.  The next invalidation
drops what was made for the material and nothing else, and says how much.  The counters count the
look-ups, and every store that succeeded is kept, was dropped, or was a refresh. -/
theorem balanced (rs : List Request) :
    (ofRequests rs).cache.Keyed ∧
    (∀ p, (ofRequests rs).cache.Storing p) ∧
    (∀ h p, ((ofRequests rs).cache.get h).1 = some p ↔ ∃ before later,
      rs = before ++ .store p :: later ∧ p.hash = h ∧
      ((ofRequests before).cache.store p).1 = .ok p ∧
      Stays p (ofRequests (before ++ [.store p])) later) ∧
    (∀ h p, ((ofRequests rs).cache.get h).1 = some p → ∀ rs',
      (∀ r ∈ rs', r ≠ .clear ∧ r ≠ .invalidate p.material) →
      ∃ q, ((ofRequests (rs ++ rs')).cache.get h).1 = some q ∧ q.sameOrigin p = true) ∧
    (∀ material, (ofRequests rs).cache.Dropping material) ∧
    (ofRequests rs).cache.hits + (ofRequests rs).cache.misses = (ofRequests rs).lookUps ∧
    (ofRequests rs).cache.entries.length + (ofRequests rs).dropped +
      (ofRequests rs).cache.refreshes = (ofRequests rs).stores := by
  have hk := kept_ofRequests rs
  refine ⟨hk.keyed, storing _, get_iff rs, fun h p hp rs' hrs' => ?_, hk.keyed.dropping, hk.lookUps,
    hk.stores⟩
  rw [ofRequests_append]
  exact hk.get_of_spared hp hrs'

end History

end PipelineCache

end RenderMaterials
