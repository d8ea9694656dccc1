import RenderMaterials.Proofs.Document.IncludeGraph

/-!
# Loading documents — what is loaded

Loading follows the walk from the root.  While a file is being loaded, the document is what the walk
so far merges, each file at its first place (`Merged`), and no file that is being loaded is in it.

* `loadInto_eq_ok`: the ways in which a file is loaded.
* `loadInto_succ`: the bound on files that can still be read is never what ends a load.
* `follows_loadInto`: a file that is loaded has a walk, and the document merges it.
* `foldlM_loadInto`: files with a walk are loaded.
* `load_spec`: a root is loaded exactly when it is sound, into the files that it reaches, in the
  order of the walk.
-/

namespace RenderMaterials

namespace Document

variable {m : MemorySource} {src : Source} {more : Nat} {entered : List String}
  {d d' : Document} {file path p q : String} {content : JsonObject} {targets : List String}

/-! ### One file -/

/-- Loads the files that a file includes, once it is entered. -/
def loadTargets (src : Source) : (more : Nat) → (entered : List String) → (path : String) →
    (targets : List String) → Document → Except MaterialError Document
  | 0,        _,       path, targets, d =>
    if targets = [] then .ok d else .error (.fileNotFound path)
  | more + 1, entered, path, targets, d =>
    targets.foldlM (loadInto src more (entered ++ [path])) d

theorem loadInto_eq (src : Source) (more : Nat) (entered : List String) (d : Document)
    (file : String) :
    loadInto src more entered d file = do
      let path ← Path.normalize file
      if entered.contains path then
        throw (.includeCycle (entered.dropWhile (· ≠ path) ++ [path]))
      if d.files.contains path then return d
      let (content, targets) ← readContent src path
      let d ← loadTargets src more entered path targets d
      return d.mergeFile path content := by
  cases more with
  | zero =>
      simp only [loadInto, loadTargets]
      refine bind_congr fun path => ?_
      by_cases he : path ∈ entered
      · simp [he]
      · by_cases hf : path ∈ d.files
        · simp [he, hf]
        · simp only [List.contains_iff_mem, he, hf, if_false]
          refine bind_congr fun c => ?_
          by_cases hc : c.2 = [] <;> simp [hc]
  | succ more => rfl

/-- A file is loaded that is merged already, and one whose includes are loaded before it. -/
theorem loadInto_eq_ok :
    loadInto src more entered d file = .ok d' ↔ ∃ path, Path.normalize file = .ok path ∧
      path ∉ entered ∧ (path ∈ d.files ∧ d = d' ∨
        path ∉ d.files ∧ ∃ content targets d₁, readContent src path = .ok (content, targets) ∧
          loadTargets src more entered path targets d = .ok d₁ ∧
          d₁.mergeFile path content = d') := by
  rw [loadInto_eq, Result.bind_eq_ok]
  refine exists_congr fun path => and_congr_right fun _ => ?_
  by_cases he : path ∈ entered
  · simp [he]
  · by_cases hf : path ∈ d.files
    · simp [he, hf]
    · simp [he, hf, Result.bind_eq_ok]

/-! ### The bound -/

/-- The files that are being loaded are different files of the source. -/
structure Entered (m : MemorySource) (entered : List String) : Prop where
  nodup : entered.Nodup
  keys  : entered ⊆ m.files.keys

theorem Entered.nil : Entered m [] := ⟨List.nodup_nil, List.nil_subset _⟩

theorem Entered.snoc (h : Entered m entered) (hp : p ∉ entered) (ho : Opens m p content targets) :
    Entered m (entered ++ [p]) := by
  refine ⟨?_, ?_⟩
  · exact List.Nodup.append h.nodup (List.nodup_singleton p) (by simpa using hp)
  · exact List.append_subset.2 ⟨h.keys, by simpa using ho.mem_keys⟩

theorem Entered.length_le (h : Entered m entered) : entered.length ≤ m.size := by
  have hl := (h.nodup.subperm h.keys).length_le
  rwa [Table.keys, List.length_map] at hl

/-- A file can be entered only while the bound leaves room for it. -/
theorem Entered.pos (h : Entered m entered) (hp : p ∉ entered) (ho : Opens m p content targets)
    (hm : m.size ≤ more + entered.length) : 0 < more := by
  have hl := (h.snoc hp ho).length_le
  rw [List.length_append, List.length_singleton] at hl
  omega

/-- Bounds that load alike what a file includes load the file alike. -/
theorem loadInto_congr {more' : Nat}
    (h : ∀ path content targets, Path.normalize file = .ok path → path ∉ entered →
      readContent src path = .ok (content, targets) →
      loadTargets src more entered path targets d = loadTargets src more' entered path targets d) :
    loadInto src more entered d file = loadInto src more' entered d file := by
  rw [loadInto_eq, loadInto_eq]
  cases hn : Path.normalize file with
  | error e => rfl
  | ok path =>
      by_cases he : path ∈ entered
      · simp [he]
      · cases hr : readContent src path with
        | error e => simp [hr]
        | ok c => simp [hr, h path c.1 c.2 hn he hr]

/-- A bound that leaves room for all files of the source can be raised, and nothing changes. -/
theorem loadInto_succ (h : Entered m entered) (hm : m.size ≤ more + entered.length) (d : Document)
    (file : String) :
    loadInto m.toSource (more + 1) entered d file = loadInto m.toSource more entered d file := by
  induction more generalizing entered d file with
  | zero =>
      refine loadInto_congr fun path content targets hn he hr => ?_
      -- there is no room left for a file that can be entered
      have ho := (readContent_eq_ok (Path.normalize_idempotent hn)).1 hr
      exact absurd (h.pos he ho hm) (Nat.lt_irrefl 0)
  | succ more ih =>
      refine loadInto_congr fun path content targets hn he hr => ?_
      have ho := (readContent_eq_ok (Path.normalize_idempotent hn)).1 hr
      have hm' : m.size ≤ more + (entered ++ [path]).length := by
        rw [List.length_append, List.length_singleton]
        omega
      have hstep : loadInto m.toSource (more + 1) (entered ++ [path]) =
          loadInto m.toSource more (entered ++ [path]) :=
        funext fun d => funext fun file => ih (h.snoc he ho) hm' d file
      rw [loadTargets, loadTargets, hstep]

/-- No bound above the number of files changes what is loaded. -/
theorem loadInto_of_le (hm : m.size ≤ more) (d : Document) (file : String) :
    loadInto m.toSource more [] d file = loadInto m.toSource m.size [] d file := by
  induction more, hm using Nat.le_induction with
  | base => rfl
  | succ more hm ih => rw [loadInto_succ Entered.nil (by simpa using hm), ih]

/-! ### Merging along a walk -/

/-- What a file holds apart from its includes. -/
def Content (m : MemorySource) (path : String) (content : JsonObject) : Prop :=
  ∃ fields, Holds m path fields ∧ content = JsonObject.swapRemove fields includesKey

/-- A document is what a walk merges: its files are those of the walk, each at its first place, and
its root is made of what they hold, in this order. -/
structure Merged (m : MemorySource) (walk : List String) (d : Document) : Prop where
  files   : d.files = walk.eraseDups
  root    : ∃ contents, List.Forall₂ (Content m) d.files contents ∧ d.root = contents.foldl merge []
  nodup   : d.files.Nodup
  /-- A file comes after those that it includes. -/
  ordered : ∀ before p after, d.files = before ++ p :: after → ∀ q, Includes m p q → q ∈ before
  /-- The walk from a file that is merged is over. -/
  closed  : ∀ p ∈ walk, ∃ u, Walk m [p] u ∧ u ⊆ walk

namespace Merged

variable {v w inner : List String}

theorem empty : Merged m [] {} := by
  refine ⟨rfl, ⟨[], .nil, rfl⟩, List.nodup_nil, fun before p after e => ?_, fun p hp => ?_⟩
  · simp at e
  · simp at hp

theorem mem_files (h : Merged m v d) : p ∈ d.files ↔ p ∈ v := by
  rw [h.files, List.mem_eraseDups]

/-- A file that is merged already is walked again, and nothing changes. -/
theorem again (h : Merged m v d) (hw : w ⊆ v) : Merged m (v ++ w) d := by
  refine ⟨?_, h.root, h.nodup, h.ordered, fun p hp => ?_⟩
  · have he : w.removeAll v = [] := by
      refine List.filter_eq_nil_iff.2 fun x hx => ?_
      simp [hw hx]
    rw [h.files, List.eraseDups_append, he]
    simp
  · obtain ⟨u, hu, hs⟩ := h.closed p ((List.mem_append.1 hp).elim id fun hp => hw hp)
    exact ⟨u, hu, fun x hx => List.mem_append_left _ (hs hx)⟩

/-- A file is merged after those that it includes. -/
theorem mergeFile (h : Merged m (v ++ inner) d) (ho : Opens m p content targets)
    (hi : Walk m targets inner) (hp : p ∉ d.files) :
    Merged m (v ++ (inner ++ [p])) (d.mergeFile p content) := by
  have hv : p ∉ v ++ inner := fun hm => hp (h.mem_files.2 hm)
  rw [← List.append_assoc]
  refine ⟨?_, ?_, ?_, fun before q after (e : d.files ++ [p] = _) r hr => ?_, fun q hq => ?_⟩
  · have he : [p].removeAll (v ++ inner) = [p] := by
      refine List.filter_eq_self.2 fun x hx => ?_
      obtain rfl := List.mem_singleton.1 hx
      simpa using hv
    rw [List.eraseDups_append, he, ← h.files]
    rfl
  · obtain ⟨contents, hc, hr⟩ := h.root
    obtain ⟨fields, hf, -, rfl⟩ := ho
    refine ⟨contents ++ [JsonObject.swapRemove fields includesKey], ?_, ?_⟩
    · exact List.rel_append hc (.cons ⟨fields, hf, rfl⟩ .nil)
    · rw [List.foldl_append, ← hr]
      rfl
  · exact List.Nodup.append h.nodup (List.nodup_singleton p) (by simpa using hp)
  · -- the file that is merged, or one of before
    rcases List.eq_nil_or_concat after with rfl | ⟨after, z, rfl⟩
    · obtain ⟨rfl, he⟩ := List.append_inj' e rfl
      obtain rfl : p = q := (List.cons.inj he).1
      exact h.mem_files.2 (List.mem_append_right _ (hi.subset (ho.includes_iff.1 hr)))
    · rw [List.concat_eq_append, ← List.cons_append, ← List.append_assoc] at e
      exact h.ordered before q after (List.append_inj' e rfl).1 r hr
  · rcases List.mem_append.1 hq with hq | hq
    · obtain ⟨u, hu, hs⟩ := h.closed q hq
      exact ⟨u, hu, fun x hx => List.mem_append_left _ (hs hx)⟩
    · obtain rfl := List.mem_singleton.1 hq
      refine ⟨inner ++ [q], .single ho hi, fun x hx => ?_⟩
      rw [List.append_assoc]
      exact List.mem_append_right _ hx

end Merged

/-! ### What is loaded -/

/-- No file that is being loaded is merged yet. -/
def Apart (entered walk : List String) : Prop := ∀ p ∈ entered, p ∉ walk

theorem Apart.append {v w : List String} (hv : Apart entered v) (hw : Apart entered w) :
    Apart entered (v ++ w) := by
  intro p hp hm
  exact (List.mem_append.1 hm).elim (hv p hp) (hw p hp)

/-- What loading a file has to keep, while the entered files are being loaded: the file has a walk,
which comes through none of them, and the document merges it. -/
def Follows (m : MemorySource) (entered : List String)
    (load : Document → String → Except MaterialError Document) : Prop :=
  ∀ v d file d', Merged m v d → Apart entered v → load d file = .ok d' →
    ∃ path w, Path.normalize file = .ok path ∧ Walk m [path] w ∧ Merged m (v ++ w) d' ∧
      Apart entered w

/-- What loading a file keeps, loading one after the other keeps. -/
theorem Follows.foldlM {load : Document → String → Except MaterialError Document} {v : List String}
    (hload : Follows m entered load) (hcanon : ∀ q ∈ targets, Path.normalize q = .ok q)
    (hd : Merged m v d) (he : Apart entered v) (h : targets.foldlM load d = .ok d') :
    ∃ w, Walk m targets w ∧ Merged m (v ++ w) d' ∧ Apart entered w := by
  induction targets generalizing v d with
  | nil =>
      obtain rfl := Except.ok.inj h
      exact ⟨[], .nil, by simpa using hd, fun p _ => by simp⟩
  | cons q targets ih =>
      rw [List.foldlM_cons, Result.bind_eq_ok] at h
      obtain ⟨d₁, hq, h⟩ := h
      obtain ⟨path, w₁, hn, hw₁, hd₁, he₁⟩ := hload v d q d₁ hd he hq
      obtain rfl := Except.ok.inj ((hcanon q (by simp)).symm.trans hn)
      obtain ⟨w, hw, hd', he'⟩ := ih (fun r hr => hcanon r (by simp [hr])) hd₁ (he.append he₁) h
      refine ⟨w₁ ++ w, hw₁.append hw, ?_, he₁.append he'⟩
      rwa [← List.append_assoc]

theorem Follows.loadTargets {v : List String}
    (hload : ∀ k, more = k + 1 →
      Follows m (entered ++ [path]) (loadInto m.toSource k (entered ++ [path])))
    (hcanon : ∀ q ∈ targets, Path.normalize q = .ok q) (hd : Merged m v d)
    (he : Apart (entered ++ [path]) v)
    (h : loadTargets m.toSource more entered path targets d = .ok d') :
    ∃ w, Walk m targets w ∧ Merged m (v ++ w) d' ∧ Apart (entered ++ [path]) w := by
  cases more with
  | zero =>
      rw [Document.loadTargets] at h
      split at h
      · next ht =>
          obtain rfl := Except.ok.inj h
          exact ⟨[], by rw [ht]; exact .nil, by simpa using hd, fun p _ => by simp⟩
      · cases h
  | succ more => exact (hload more rfl).foldlM hcanon hd he h

theorem Follows.loadInto
    (hload : ∀ k, more = k + 1 → ∀ path,
      Follows m (entered ++ [path]) (loadInto m.toSource k (entered ++ [path]))) :
    Follows m entered (loadInto m.toSource more entered) := by
  intro v d file d' hd he h
  obtain ⟨path, hn, hp, ⟨hf, rfl⟩ | ⟨hf, content, targets, d₁, hr, hl, rfl⟩⟩ := loadInto_eq_ok.1 h
  · -- the file is merged already: its walk is over
    obtain ⟨w, hw, hs⟩ := hd.closed path (hd.mem_files.1 hf)
    exact ⟨path, w, hn, hw, hd.again hs, fun p hp hm => he p hp (hs hm)⟩
  · -- the file is merged after those that it includes
    have ho := (readContent_eq_ok (Path.normalize_idempotent hn)).1 hr
    have hv : path ∉ v := fun hm => hf (hd.mem_files.2 hm)
    have he' : Apart (entered ++ [path]) v := fun p hm =>
      (List.mem_append.1 hm).elim (he p) fun hm => List.mem_singleton.1 hm ▸ hv
    obtain ⟨inner, hi, hd₁, hin⟩ := Follows.loadTargets (fun k hk => hload k hk path)
      (fun q hq => ho.canonical hq) hd he' hl
    have hpi : path ∉ inner := hin path (by simp)
    refine ⟨path, inner ++ [path], hn, .single ho hi, hd₁.mergeFile ho hi ?_, fun p hm => ?_⟩
    · rw [hd₁.mem_files]
      exact fun hm => (List.mem_append.1 hm).elim hv hpi
    · have hne : p ≠ path := fun e => hp (e ▸ hm)
      simpa [hne] using hin p (List.mem_append_left _ hm)

/-- Whatever bound it has, loading follows the walk. -/
theorem follows_loadInto (m : MemorySource) (more : Nat) (entered : List String) :
    Follows m entered (loadInto m.toSource more entered) := by
  induction more generalizing entered with
  | zero => exact Follows.loadInto fun k hk => absurd hk (by simp)
  | succ more ih =>
      refine Follows.loadInto fun k hk path => ?_
      obtain rfl := Nat.succ.inj hk
      exact ih (entered ++ [path])

/-! ### What has a walk is loaded -/

/-- Files with a walk that comes through none that is being loaded are loaded, into any document. -/
theorem foldlM_loadInto {files w : List String} (hw : Walk m files w)
    (hcanon : ∀ q ∈ files, Path.normalize q = .ok q) (he : Entered m entered)
    (hm : m.size ≤ more + entered.length) (hapart : Apart entered w) (d : Document) :
    ∃ d', files.foldlM (loadInto m.toSource more entered) d = .ok d' := by
  induction hw generalizing more entered d with
  | nil => exact ⟨d, rfl⟩
  | @cons file files content targets inner rest ho hi hr ihi ihr =>
      have hn := hcanon file (by simp)
      have hfile : file ∉ entered := fun hf => hapart file hf (by simp)
      -- the file itself
      have hone : ∃ d₁, loadInto m.toSource more entered d file = .ok d₁ := by
        by_cases hf : file ∈ d.files
        · exact ⟨d, loadInto_eq_ok.2 ⟨file, hn, hfile, .inl ⟨hf, rfl⟩⟩⟩
        · obtain ⟨more, rfl⟩ := Nat.exists_eq_succ_of_ne_zero (he.pos hfile ho hm).ne'
          have hinner : file ∉ inner := (Walk.single ho hi).not_mem
          have hm' : m.size ≤ more + (entered ++ [file]).length := by
            rw [List.length_append, List.length_singleton]
            omega
          have hapart' : Apart (entered ++ [file]) inner := fun p hp hpi =>
            (List.mem_append.1 hp).elim (fun hp => hapart p hp (by simp [hpi]))
              fun hp => hinner (List.mem_singleton.1 hp ▸ hpi)
          obtain ⟨d₁, hd₁⟩ := ihi (fun q hq => ho.canonical hq) (he.snoc hfile ho) hm' hapart' d
          exact ⟨_, loadInto_eq_ok.2 ⟨file, hn, hfile, .inr ⟨hf, content, targets, d₁,
            (readContent_eq_ok hn).2 ho, hd₁, rfl⟩⟩⟩
      obtain ⟨d₁, hd₁⟩ := hone
      obtain ⟨d', hd'⟩ := ihr (fun q hq => hcanon q (by simp [hq])) he hm
        (fun p hp hpr => hapart p hp (by simp [hpr])) d₁
      exact ⟨d', by rw [List.foldlM_cons, hd₁, Result.ok_bind, hd']⟩

/-! ### Loading a root -/

/-- The document that a root is loaded into. -/
structure Loaded (m : MemorySource) (path : String) (d : Document) : Prop where
  /-- Every reachable file, once. -/
  nodup   : d.files.Nodup
  mem_iff : ∀ p, p ∈ d.files ↔ Reaches m path p
  /-- A file comes after those that it includes, and the root comes last. -/
  ordered : ∀ before p after, d.files = before ++ p :: after → ∀ q, Includes m p q → q ∈ before
  last    : d.files.getLast? = some path
  /-- The order is that in which a depth-first walk from left to right leaves a file first. -/
  walk    : ∃ w, Walk m [path] w ∧ d.files = w.eraseDups
  /-- The contents are merged in this order. -/
  root    : ∃ contents, List.Forall₂ (Content m) d.files contents ∧ d.root = contents.foldl merge []

theorem Merged.loaded {w : List String} (hd : Merged m w d) (hw : Walk m [path] w) :
    Loaded m path d := by
  refine ⟨hd.nodup, fun p => ?_, hd.ordered, ?_, ⟨w, hw, hd.files⟩, hd.root⟩
  · rw [hd.mem_files, hw.mem_iff]
  · obtain ⟨content, targets, inner, ho, hi, rfl⟩ := hw.of_single
    have he : [path].removeAll inner = [path] := by
      refine List.filter_eq_self.2 fun x hx => ?_
      obtain rfl := List.mem_singleton.1 hx
      simpa using hw.not_mem
    rw [hd.files, List.eraseDups_append, he]
    simp [List.eraseDups_cons]

theorem load_eq_ok {root : String} :
    load src root = .ok d ↔ loadInto src src.size [] {} root = .ok d := by
  unfold load
  cases loadInto src src.size [] {} root <;> simp [Except.mapError]

/-- A root is loaded exactly when its path is valid and the files that it reaches can be merged and
make no cycle, and then all of them are loaded, in the order of the walk.  The bound on the number
of files never ends a load. -/
theorem load_spec (m : MemorySource) (root : String) :
    (∀ more, m.size ≤ more →
      loadInto m.toSource more [] {} root = loadInto m.toSource m.size [] {} root) ∧
    ((∃ d, load m.toSource root = .ok d) ↔
      ∃ path, Path.normalize root = .ok path ∧ Sound m path) ∧
    ∀ d, load m.toSource root = .ok d →
      ∃ path, Path.normalize root = .ok path ∧ Loaded m path d := by
  have hwalk : ∀ d, load m.toSource root = .ok d → ∃ path w,
      Path.normalize root = .ok path ∧ Walk m [path] w ∧ Merged m w d := fun d h => by
    obtain ⟨path, w, hn, hw, hd, -⟩ := follows_loadInto m m.size [] [] {} root d Merged.empty
      (fun p hp => absurd hp (by simp)) (load_eq_ok.1 h)
    exact ⟨path, w, hn, hw, hd⟩
  refine ⟨fun more hm => loadInto_of_le hm {} root, ⟨?_, ?_⟩, fun d h => ?_⟩
  · rintro ⟨d, h⟩
    obtain ⟨path, w, hn, hw, -⟩ := hwalk d h
    exact ⟨path, hn, hw.sound⟩
  · rintro ⟨path, hn, hs⟩
    obtain ⟨w, hw⟩ := hs.exists_walk
    have hcanon := Path.normalize_idempotent hn
    have hm : m.size ≤ m.size + ([] : List String).length := by simp
    obtain ⟨d, hd⟩ := foldlM_loadInto hw (by simpa using hcanon) Entered.nil hm
      (fun p hp => absurd hp (by simp)) {}
    refine ⟨d, load_eq_ok.2 ?_⟩
    rw [List.foldlM_cons, Result.bind_eq_ok] at hd
    obtain ⟨d', hd', e⟩ := hd
    obtain rfl := Except.ok.inj e
    -- the root and its canonical form are loaded alike
    rw [loadInto_eq, hcanon] at hd'
    change loadInto m.toSource m.size [] {} root = _
    rw [loadInto_eq, hn]
    exact hd'
  · obtain ⟨path, w, hn, hw, hd⟩ := hwalk d h
    exact ⟨path, hn, hd.loaded hw⟩

end Document

end RenderMaterials
