import RenderMaterials.Layout.Cache
import Mathlib.Data.List.Induction
import Mathlib.Data.List.Nodup

/-!
# Layout cache — runs

The layout of a specification is made once and then handed out again.  The key of a specification
is a hash, so the cache keeps the specification beside the layout and compares it with the one that
is asked for: a specification never gets the layout of another.

* `answered`: the five things that can become of a request for a layout.
* `History.Kept.after`: each request keeps the entries a record of what backends have made since the
  last clear, key by key.
* `History.transparent`: what holds after every run of requests, whatever the backends answer; and
  how many layouts the backend without a graphics interface makes.
-/

namespace RenderMaterials

namespace LayoutCache

variable {σ : Type} {c : LayoutCache} {b : Backend σ} {device : σ} {spec other : LayoutSpec}
  {layout : GpuLayout}

/-! ### One request -/

/-- What becomes of a request for the layout of a specification. -/
inductive Answered (c : LayoutCache) (b : Backend σ) (device : σ) (spec : LayoutSpec) :
    Answer σ → Prop
  /-- Its layout is there. -/
  | known {layout : GpuLayout} : c.entries.value? spec.hash = some (spec, layout) →
      Answered c b device spec ⟨.ok layout, none, c, device⟩
  /-- Its key is that of another specification. -/
  | collides {other : LayoutSpec} {layout : GpuLayout} :
      c.entries.value? spec.hash = some (other, layout) → other ≠ spec →
      Answered c b device spec ⟨.error (.layoutCollision spec.hash), none, c, device⟩
  /-- It takes too many words. -/
  | tooLarge {e : MaterialError} : c.entries.value? spec.hash = none →
      NativeLayout.ofSpec spec = .error e →
      Answered c b device spec ⟨.error e, none, c, device⟩
  /-- The backend refuses it. -/
  | refused {native : NativeLayout} {e : MaterialError} {device' : σ} :
      c.entries.value? spec.hash = none → NativeLayout.ofSpec spec = .ok native →
      b.createLayout native device = (.error e, device') →
      Answered c b device spec ⟨.error e, some native, c, device'⟩
  /-- The backend makes it. -/
  | made {native : NativeLayout} {layout : GpuLayout} {device' : σ} :
      c.entries.value? spec.hash = none → NativeLayout.ofSpec spec = .ok native →
      b.createLayout native device = (.ok layout, device') →
      Answered c b device spec
        ⟨.ok layout, some native, ⟨c.entries ++ [(spec.hash, spec, layout)]⟩, device'⟩

theorem answered (c : LayoutCache) (b : Backend σ) (device : σ) (spec : LayoutSpec) :
    Answered c b device spec (c.getOrCreate b device spec) := by
  unfold getOrCreate
  cases hv : c.entries.value? spec.hash with
  | some entry =>
      obtain ⟨known, layout⟩ := entry
      dsimp only
      split
      · next hk => exact .known (hk ▸ hv)
      · next hk => exact .collides hv hk
  | none =>
      dsimp only
      cases hn : NativeLayout.ofSpec spec with
      | error e => exact .tooLarge hv hn
      | ok native =>
          dsimp only
          rcases hl : b.createLayout native device with ⟨e | layout, device'⟩
          · exact .refused hv hn hl
          · have hnew : c.entries.has spec.hash = false := by rw [Table.has, hv]; rfl
            simp only [Table.assign_of_not_has hnew]
            exact .made hv hn hl

/-- A key with an entry is answered by comparing specifications, and the backend is not asked. -/
theorem getOrCreate_of_entry (hv : c.entries.value? spec.hash = some (other, layout))
    (b : Backend σ) (device : σ) :
    c.getOrCreate b device spec =
      if other = spec then ⟨.ok layout, none, c, device⟩
      else ⟨.error (.layoutCollision spec.hash), none, c, device⟩ := by
  simp only [getOrCreate, hv]

/-- A layout that is answered is kept under the key of its specification. -/
theorem entry_of_getOrCreate (h : (c.getOrCreate b device spec).result = .ok layout) :
    (c.getOrCreate b device spec).cache.entries.value? spec.hash = some (spec, layout) := by
  have ha := answered c b device spec
  generalize c.getOrCreate b device spec = a at ha h ⊢
  cases ha with
  | known hv => rw [hv, Except.ok.inj h]
  | collides _ _ => cases h
  | tooLarge _ _ => cases h
  | refused _ _ _ => cases h
  | made hv _ _ => simp [Table.value?_append, hv, Table.value?, Except.ok.inj h]

/-! ### Runs -/

/-- A request to a cache, made with a backend. -/
inductive Request (σ : Type) where
  | getOrCreate (b : Backend σ) (spec : LayoutSpec)
  | clear

/-- A layout that a backend made. -/
structure Creation where
  /-- What the layout was asked for. -/
  spec   : LayoutSpec
  /-- What the backend was given. -/
  native : NativeLayout
  /-- What the backend gave back. -/
  layout : GpuLayout

/-- What a creation is as an entry. -/
def Creation.entry (x : Creation) : UInt64 × LayoutSpec × GpuLayout :=
  (x.spec.hash, x.spec, x.layout)

/-- A cache with what has happened to it. -/
structure History (σ : Type) where
  cache    : LayoutCache := {}
  /-- The state of the backends. -/
  device   : σ
  /-- What backends have made since the last clear. -/
  made     : List Creation := []
  /-- The specifications that got a layout since the last clear. -/
  answered : List (LayoutSpec × GpuLayout) := []
  /-- The number of entries that were put into the cache. -/
  inserted : Nat := 0

namespace History

variable {t : History σ}

/-- What a call of a backend adds to what was made. -/
def creations (b : Backend σ) (device : σ) (spec : LayoutSpec) : Option NativeLayout → List Creation
  | none        => []
  | some native =>
    match (b.createLayout native device).1 with
    | .ok layout => [⟨spec, native, layout⟩]
    | .error _   => []

/-- What a request adds to the specifications that got a layout. -/
def answers (spec : LayoutSpec) : Except MaterialError GpuLayout → List (LayoutSpec × GpuLayout)
  | .ok layout => [(spec, layout)]
  | .error _   => []

/-- One more request. -/
def after (t : History σ) : Request σ → History σ
  | .getOrCreate b spec =>
    let a := t.cache.getOrCreate b t.device spec
    { cache    := a.cache
      device   := a.device
      made     := t.made ++ creations b t.device spec a.asked?
      answered := t.answered ++ answers spec a.result
      inserted := t.inserted + (a.cache.entries.length - t.cache.entries.length) }
  | .clear => { t with cache := {}, made := [], answered := [] }

/-- Requests to a cache that starts empty, with the backends in a given state. -/
def ofRequests (device : σ) (rs : List (Request σ)) : History σ := rs.foldl after { device }

/-- What every request keeps. -/
structure Kept (t : History σ) : Prop where
  /-- The entries are what was made since the last clear. -/
  entries  : t.cache.entries = t.made.map Creation.entry
  /-- No key was made twice. -/
  nodup    : (t.made.map (·.spec.hash)).Nodup
  native   : ∀ x ∈ t.made, NativeLayout.ofSpec x.spec = .ok x.native
  answered : ∀ a ∈ t.answered, t.cache.entries.value? a.1.hash = some a

theorem Kept.start (device : σ) : Kept ({ device } : History σ) := by
  refine ⟨rfl, List.nodup_nil, fun x hx => ?_, fun a ha => ?_⟩
  · simp at hx
  · simp at ha

theorem kept_clear (t : History σ) : (t.after .clear).Kept := by
  have h := Kept.start t.device
  exact ⟨h.entries, h.nodup, h.native, h.answered⟩

/-- A key without an entry is one that nothing was made for. -/
theorem Kept.not_mem_made (ht : t.Kept) (hv : t.cache.entries.value? spec.hash = none) :
    spec.hash ∉ t.made.map (·.spec.hash) := by
  have hkeys : t.cache.entries.keys = t.made.map (·.spec.hash) := by
    rw [ht.entries, Table.keys, List.map_map]
    rfl
  rw [← hkeys, Table.mem_keys_iff, Table.has, hv]
  simp

theorem Kept.getOrCreate (ht : t.Kept) (b : Backend σ) (spec : LayoutSpec) :
    (t.after (.getOrCreate b spec)).Kept := by
  have ha := LayoutCache.answered t.cache b t.device spec
  unfold History.after
  dsimp only
  generalize t.cache.getOrCreate b t.device spec = a at ha ⊢
  cases ha with
  | @known layout hv =>
      simp only [creations, answers, List.append_nil]
      refine ⟨ht.entries, ht.nodup, ht.native, fun x hx => ?_⟩
      rcases List.mem_append.1 hx with hx | hx
      · exact ht.answered x hx
      · obtain rfl := List.mem_singleton.1 hx
        exact hv
  | collides _ _ =>
      simp only [creations, answers, List.append_nil]
      exact ⟨ht.entries, ht.nodup, ht.native, ht.answered⟩
  | tooLarge _ _ =>
      simp only [creations, answers, List.append_nil]
      exact ⟨ht.entries, ht.nodup, ht.native, ht.answered⟩
  | refused _ _ hl =>
      simp only [creations, hl, answers, List.append_nil]
      exact ⟨ht.entries, ht.nodup, ht.native, ht.answered⟩
  | @made native layout device' hv hn hl =>
      simp only [creations, hl, answers]
      refine ⟨?_, ?_, fun x hx => ?_, fun x hx => ?_⟩
      · rw [ht.entries, List.map_append]
        rfl
      · rw [List.map_append]
        exact List.Nodup.append ht.nodup (List.nodup_singleton _)
          (by simpa using ht.not_mem_made hv)
      · rcases List.mem_append.1 hx with hx | hx
        · exact ht.native x hx
        · obtain rfl := List.mem_singleton.1 hx
          exact hn
      · rw [Table.value?_append]
        rcases List.mem_append.1 hx with hx | hx
        · rw [ht.answered x hx]
          rfl
        · obtain rfl := List.mem_singleton.1 hx
          rw [hv]
          simp [Table.value?]

theorem Kept.after (ht : t.Kept) (r : Request σ) : (t.after r).Kept := by
  cases r with
  | getOrCreate b spec => exact ht.getOrCreate b spec
  | clear => exact kept_clear t

theorem kept_ofRequests (device : σ) (rs : List (Request σ)) : (ofRequests device rs).Kept := by
  induction rs using List.reverseRecOn with
  | nil => exact .start device
  | append_singleton rs r ih =>
      rw [ofRequests, List.foldl_append]
      exact Kept.after ih r

/-! ### What was answered -/

/-- What holds of the entries and of all layouts that were handed out since the last clear. -/
structure Transparent (t : History σ) : Prop where
  /-- Each entry is kept under the key of its specification. -/
  keyed : ∀ k spec layout, (k, spec, layout) ∈ t.cache.entries → k = spec.hash
  /-- A layout was made by a backend of the native form of the specification. -/
  made  : ∀ spec layout, (spec, layout) ∈ t.answered →
    ∃ native, NativeLayout.ofSpec spec = .ok native ∧ ⟨spec, native, layout⟩ ∈ t.made
  /-- For a specification a backend has made one layout. -/
  once  : (t.made.map (·.spec)).Nodup
  /-- A specification gets one layout, and no other specification of its key gets any. -/
  same  : ∀ x ∈ t.answered, ∀ y ∈ t.answered, x.1.hash = y.1.hash → x = y

theorem transparent_of_kept (ht : t.Kept) : t.Transparent := by
  refine ⟨fun k spec layout hk => ?_, fun spec layout ha => ?_, ?_, fun x hx y hy hh => ?_⟩
  · rw [ht.entries] at hk
    obtain ⟨x, -, hx⟩ := List.mem_map.1 hk
    cases hx
    rfl
  · have hentry := Table.mem_of_value? (ht.answered _ ha)
    rw [ht.entries] at hentry
    obtain ⟨⟨spec', native, layout'⟩, hx, e⟩ := List.mem_map.1 hentry
    obtain ⟨rfl, rfl⟩ := Prod.mk.inj (Prod.mk.inj e).2
    exact ⟨native, ht.native _ hx, hx⟩
  · have hmap : (t.made.map (·.spec)).map LayoutSpec.hash = t.made.map (·.spec.hash) := by
      rw [List.map_map]
      rfl
    exact List.Nodup.of_map LayoutSpec.hash (hmap ▸ ht.nodup)
  · have he := ht.answered y hy
    rw [← hh, ht.answered x hx] at he
    exact Option.some.inj he

/-- What the next request for the layout of a specification does. -/
structure Answering (t : History σ) (b : Backend σ) (spec : LayoutSpec) : Prop where
  /-- A specification that got a layout gets it again, and no backend is asked. -/
  again    : ∀ layout, (spec, layout) ∈ t.answered →
    (t.cache.getOrCreate b t.device spec).result = .ok layout ∧
    (t.cache.getOrCreate b t.device spec).asked? = none
  /-- A specification that shares its key with another one that got a layout gets none. -/
  collides : ∀ x ∈ t.answered, x.1 ≠ spec → x.1.hash = spec.hash →
    (t.cache.getOrCreate b t.device spec).result = .error (.layoutCollision spec.hash)
  /-- A failure is a collision with an entry of another specification; or, where the key has no
  entry, what is wrong with the native form, or what the backend answers.  It changes no entry. -/
  failed   : ∀ e, (t.cache.getOrCreate b t.device spec).result = .error e →
    (t.cache.getOrCreate b t.device spec).cache = t.cache ∧
    (e = .layoutCollision spec.hash ∧ (∃ other layout,
        (spec.hash, other, layout) ∈ t.cache.entries ∧ other ≠ spec) ∨
      (∀ other layout, (spec.hash, other, layout) ∉ t.cache.entries) ∧
        (NativeLayout.ofSpec spec = .error e ∨
          ∃ native, NativeLayout.ofSpec spec = .ok native ∧
            (b.createLayout native t.device).1 = .error e))

theorem not_mem_entries (hv : t.cache.entries.value? spec.hash = none) (other : LayoutSpec)
    (layout : GpuLayout) : (spec.hash, other, layout) ∉ t.cache.entries := by
  intro hmem
  have hhas : t.cache.entries.has spec.hash = true :=
    (Table.mem_keys_iff _ _).1 (List.mem_map.2 ⟨_, hmem, rfl⟩)
  rw [Table.has, hv] at hhas
  cases hhas

theorem answering_of_kept (ht : t.Kept) (b : Backend σ) (spec : LayoutSpec) :
    t.Answering b spec := by
  refine ⟨fun layout hl => ?_, fun x hx hne hh => ?_, fun e he => ?_⟩
  · rw [getOrCreate_of_entry (ht.answered _ hl), if_pos rfl]
    exact ⟨rfl, rfl⟩
  · have hentry := ht.answered x hx
    rw [hh] at hentry
    rw [getOrCreate_of_entry hentry, if_neg hne]
  · have ha := LayoutCache.answered t.cache b t.device spec
    generalize t.cache.getOrCreate b t.device spec = a at ha he ⊢
    cases ha with
    | known _ => cases he
    | collides hv hne =>
        exact ⟨rfl, .inl ⟨(Except.error.inj he).symm, _, _, Table.mem_of_value? hv, hne⟩⟩
    | tooLarge hv hn =>
        cases he
        exact ⟨rfl, .inr ⟨not_mem_entries hv, .inl hn⟩⟩
    | refused hv hn hl =>
        cases he
        exact ⟨rfl, .inr ⟨not_mem_entries hv, .inr ⟨_, hn, by rw [hl]⟩⟩⟩
    | made _ _ _ => cases he

/-! ### What the backend without a graphics interface makes -/

/-- A call of the backend without a graphics interface makes one layout for each entry that it
leads to. -/
theorem layouts_after (t : History Counts) (spec : LayoutSpec) :
    (t.after (.getOrCreate .simulated spec)).device.layouts + t.inserted =
      t.device.layouts + (t.after (.getOrCreate .simulated spec)).inserted := by
  have ha := LayoutCache.answered t.cache .simulated t.device spec
  unfold History.after
  dsimp only
  generalize t.cache.getOrCreate .simulated t.device spec = a at ha ⊢
  cases ha with
  | known _ => dsimp only; omega
  | collides _ _ => dsimp only; omega
  | tooLarge _ _ => dsimp only; omega
  | refused _ _ hl => cases hl
  | made _ _ hl =>
      cases hl
      simp only [List.length_append, List.length_singleton]
      omega

theorem layouts_ofRequests (device : Counts) {rs : List (Request Counts)}
    (hrs : ∀ b spec, .getOrCreate b spec ∈ rs → b = .simulated) :
    (ofRequests device rs).device.layouts =
      device.layouts + (ofRequests device rs).inserted := by
  induction rs using List.reverseRecOn with
  | nil => rfl
  | append_singleton rs r ih =>
      have hlast : ofRequests device (rs ++ [r]) = (ofRequests device rs).after r := by
        rw [ofRequests, List.foldl_append]
        rfl
      have ih := ih fun b spec h => hrs b spec (List.mem_append_left [r] h)
      rw [hlast]
      cases r with
      | getOrCreate b spec =>
          obtain rfl := hrs b spec (by simp)
          have hstep := layouts_after (ofRequests device rs) spec
          omega
      | clear => exact ih

/-- After every run of requests, made with any backends: each entry is kept under the key of its
specification; a layout that was handed out since the last clear was made by a backend of the native
form of its specification, once, and every request for this specification got it; the next request
for it gets it again, a request for another specification of its key is refused, and a request that
fails changes no entry and reports a collision only with an entry of another specification.  With
the backend without a graphics interface as many layouts are made as entries are put in. -/
theorem transparent :
    (∀ {σ : Type} (device : σ) (rs : List (Request σ)), (ofRequests device rs).Transparent ∧
      ∀ b spec, (ofRequests device rs).Answering b spec) ∧
    ∀ (device : Counts) (rs : List (Request Counts)),
      (∀ b spec, .getOrCreate b spec ∈ rs → b = .simulated) →
      (ofRequests device rs).device.layouts =
        device.layouts + (ofRequests device rs).inserted := by
  refine ⟨fun device rs => ?_, fun device rs hrs => layouts_ofRequests device hrs⟩
  have hk := kept_ofRequests device rs
  exact ⟨transparent_of_kept hk, answering_of_kept hk⟩

/-- A layout, the same again, one that takes too many words, and the first one after a clear. -/
def sampleRequests : List (Request Counts) :=
  let camera : Binding := ⟨"camera", .constantBuffer, some 0, .single .vertex⟩
  [.getOrCreate .simulated ⟨[camera]⟩, .getOrCreate .simulated ⟨[camera]⟩,
    .getOrCreate .simulated ⟨List.replicate 33 camera⟩, .clear, .getOrCreate .simulated ⟨[camera]⟩]

set_option maxRecDepth 100000 in
theorem inserted_sampleRequests : (ofRequests {} sampleRequests).inserted = 2 := by
  decide +kernel

/-- Two layouts are made in a run of four requests for one. -/
theorem two_layouts_of_four_requests :
    (∀ b spec, .getOrCreate b spec ∈ sampleRequests → b = .simulated) ∧
    (ofRequests {} sampleRequests).device.layouts = ({} : Counts).layouts + 2 := by
  have hsim : ∀ b spec, .getOrCreate b spec ∈ sampleRequests → b = .simulated := by
    intro b spec h
    simp only [sampleRequests, List.mem_cons, Request.getOrCreate.injEq, List.not_mem_nil,
      reduceCtorEq, or_false, false_or] at h
    rcases h with h | h | h | h <;> exact h.1
  exact ⟨hsim, inserted_sampleRequests ▸ transparent.2 {} sampleRequests hsim⟩

end History

end LayoutCache

end RenderMaterials
