import RenderMaterials.Document.Load
import RenderMaterials.Proofs.Acyclic
import RenderMaterials.Proofs.Result
import RenderMaterials.Proofs.Source.Canonical
import Mathlib.Data.Fintype.Card

/-!
# The graph of includes

A source in memory is a graph: its files are the nodes, and a file has an edge to each file that it
includes.

* `Opens`: a file is there, holds an object, and its includes are an array of texts that name files.
* `Includes`, `Reaches`: the edges, and what is found by following them.
* `Sound`: what is asked of a file for it to be loaded.
* `Walk`: the files in the order in which a depth-first walk from left to right leaves them.  A file
  that is included twice is walked twice.
* `Sound.exists_walk`, `Walk.sound`: a file is sound exactly when there is a walk from it.
* `Walk.mem_iff`: a walk comes through what its files reach, and nothing else.
-/

namespace RenderMaterials

namespace Document

variable {m : MemorySource} {p q : String} {content : JsonObject} {targets : List String}

/-! ### Files that can be merged -/

/-- A source holds an object under a path. -/
def Holds (m : MemorySource) (path : String) (fields : JsonObject) : Prop :=
  ∃ data text, m.files.value? path = some data ∧ Text.decodeUtf8 data = .ok text ∧
    Json.read? text = some (.object fields)

/-- An entry of a file's includes names a file. -/
def Names (path : String) (entry : Json) (target : String) : Prop :=
  ∃ text, entry = .text text ∧ Path.resolveInclude path text = .ok target

/-- The files that an object includes when it stands in a file. -/
inductive Lists (path : String) (fields : JsonObject) : List String → Prop
  | none : fields.value? includesKey = .none → Lists path fields []
  | entries {entries : List Json} {targets : List String} :
      fields.value? includesKey = some (.array entries) →
      List.Forall₂ (Names path) entries targets → Lists path fields targets

/-- A file can be merged: what it holds apart from its includes, and the files that it includes. -/
def Opens (m : MemorySource) (path : String) (content : JsonObject) (targets : List String) :
    Prop :=
  ∃ fields, Holds m path fields ∧ Lists path fields targets ∧
    content = JsonObject.swapRemove fields includesKey

theorem includeTarget_eq_ok {src : Source} {entry : Json} :
    includeTarget src p entry = .ok q ↔ Names p entry q := by
  cases entry with
  | text s => simp [includeTarget, Names]
  | _ => simp [includeTarget, Names]

theorem includeTargets_eq_ok {src : Source} {fields : JsonObject} :
    includeTargets src p fields = .ok targets ↔ Lists p fields targets := by
  unfold includeTargets
  split
  · next hn =>
      constructor
      · intro h
        obtain rfl := Except.ok.inj h
        exact .none hn
      · rintro (_ | ⟨he, _⟩)
        · rfl
        · rw [hn] at he; cases he
  · next entries hv =>
      simp only [Result.mapM_eq_ok, includeTarget_eq_ok]
      constructor
      · exact .entries hv
      · rintro (hn | ⟨he, h⟩)
        · rw [hv] at hn; cases hn
        · rw [hv] at he; cases he
          exact h
  · next v hne hv =>
      refine iff_of_false (by simp) ?_
      rintro (hn | ⟨he, _⟩)
      · rw [hv] at hn; cases hn
      · rw [hv] at he; cases he
        exact hne _ rfl

theorem readObject_eq_ok {fields : JsonObject} (hp : Path.normalize p = .ok p) :
    readObject m.toSource p = .ok fields ↔ Holds m p fields := by
  have hr : m.toSource.read p = m.read p := rfl
  unfold readObject Holds
  rw [Result.bind_eq_ok, hr, m.read_canonical hp]
  cases m.files.value? p with
  | none => simp
  | some data =>
      cases hd : Text.decodeUtf8 data with
      | error fault => simp [hd, Except.toOption]
      | ok text =>
          cases hj : Json.read? text with
          | none => simp [hd, hj, Except.toOption]
          | some v => cases v <;> simp [hd, hj, Except.toOption]

/-- The loader reads a file exactly when it can be merged. -/
theorem readContent_eq_ok (hp : Path.normalize p = .ok p) :
    readContent m.toSource p = .ok (content, targets) ↔ Opens m p content targets := by
  unfold readContent Opens
  simp only [Result.bind_eq_ok, readObject_eq_ok hp, includeTargets_eq_ok]
  constructor
  · rintro ⟨fields, hf, ts, hl, e⟩
    cases e
    exact ⟨fields, hf, hl, rfl⟩
  · rintro ⟨fields, hf, hl, rfl⟩
    exact ⟨fields, hf, targets, hl, rfl⟩

theorem Lists.unique {fields : JsonObject} {ts ts' : List String} (h : Lists p fields ts)
    (h' : Lists p fields ts') : ts = ts' := by
  have e : includeTargets (MemorySource.toSource {}) p fields = .ok ts := includeTargets_eq_ok.2 h
  exact Except.ok.inj (e.symm.trans (includeTargets_eq_ok.2 h'))

theorem Holds.unique {fs fs' : JsonObject} (h : Holds m p fs) (h' : Holds m p fs') : fs = fs' := by
  obtain ⟨data, text, hd, ht, hj⟩ := h
  obtain ⟨data', text', hd', ht', hj'⟩ := h'
  cases hd.symm.trans hd'
  cases ht.symm.trans ht'
  cases hj.symm.trans hj'
  rfl

theorem Opens.unique {content' : JsonObject} {targets' : List String}
    (h : Opens m p content targets) (h' : Opens m p content' targets') :
    content = content' ∧ targets = targets' := by
  obtain ⟨fs, hf, hl, rfl⟩ := h
  obtain ⟨fs', hf', hl', rfl⟩ := h'
  cases hf.unique hf'
  exact ⟨rfl, hl.unique hl'⟩

/-- A file that can be merged is in the source. -/
theorem Opens.mem_keys (h : Opens m p content targets) : p ∈ m.files.keys := by
  obtain ⟨fields, ⟨data, text, hd, -⟩, -⟩ := h
  exact (Table.mem_keys_iff m.files p).2 (Table.has_iff.2 ⟨data, hd⟩)

/-- What a file includes is canonical. -/
theorem Opens.canonical (h : Opens m p content targets) (hq : q ∈ targets) :
    Path.normalize q = .ok q := by
  obtain ⟨fields, -, hl, -⟩ := h
  cases hl with
  | none _ => simp at hq
  | entries _ hall =>
      obtain ⟨entry, -, text, -, hr⟩ := Result.exists_left_of_mem hall hq
      exact Path.normalize_resolveInclude hr

/-! ### Edges -/

/-- A file includes another: an entry of its includes names it. -/
def Includes (m : MemorySource) (p q : String) : Prop :=
  ∃ fields entries entry, Holds m p fields ∧ fields.value? includesKey = some (.array entries) ∧
    entry ∈ entries ∧ Names p entry q

theorem Opens.includes_iff (h : Opens m p content targets) : Includes m p q ↔ q ∈ targets := by
  obtain ⟨fields, hf, hl, -⟩ := h
  constructor
  · rintro ⟨fields', entries, entry, hf', hv, he, hn⟩
    cases hf.unique hf'
    cases hl with
    | none hv' => rw [hv] at hv'; cases hv'
    | entries hv' hall =>
        cases hv.symm.trans hv'
        obtain ⟨q', hq', text, rfl, hr⟩ := Result.exists_right_of_mem hall he
        obtain ⟨text', e, hr'⟩ := hn
        cases e
        cases hr.symm.trans hr'
        exact hq'
  · intro hq
    cases hl with
    | none _ => simp at hq
    | entries hv hall =>
        obtain ⟨entry, he, hn⟩ := Result.exists_left_of_mem hall hq
        exact ⟨fields, _, entry, hf, hv, he, hn⟩

/-- A file is reached from another by following includes. -/
def Reaches (m : MemorySource) : String → String → Prop := Relation.ReflTransGen (Includes m)

/-- A file can be loaded: each file that it reaches can be merged, and none of them reaches itself
again. -/
structure Sound (m : MemorySource) (path : String) : Prop where
  opens   : ∀ p, Reaches m path p → ∃ content targets, Opens m p content targets
  acyclic : ∀ p, Reaches m path p → ¬ Relation.TransGen (Includes m) p p

/-! ### Walks -/

/-- The files that a depth-first walk from left to right leaves, in the order of leaving. -/
inductive Walk (m : MemorySource) : List String → List String → Prop
  | nil : Walk m [] []
  | cons {file : String} {files : List String} {content : JsonObject}
      {targets inner rest : List String} :
      Opens m file content targets → Walk m targets inner → Walk m files rest →
      Walk m (file :: files) (inner ++ file :: rest)

namespace Walk

variable {files w : List String}

theorem single (ho : Opens m p content targets) {inner : List String} (hi : Walk m targets inner) :
    Walk m [p] (inner ++ [p]) := .cons ho hi .nil

theorem of_single (h : Walk m [p] w) : ∃ content targets inner,
    Opens m p content targets ∧ Walk m targets inner ∧ w = inner ++ [p] := by
  cases h with
  | cons ho hi hr =>
      cases hr
      exact ⟨_, _, _, ho, hi, rfl⟩

theorem append {fs gs v : List String} (hv : Walk m fs v) (hw : Walk m gs w) :
    Walk m (fs ++ gs) (v ++ w) := by
  induction hv with
  | nil => exact hw
  | cons ho hi hr _ ihr =>
      rw [List.append_assoc, List.cons_append]
      exact .cons ho hi ihr

/-- There is one walk. -/
theorem unique {w' : List String} (h : Walk m files w) (h' : Walk m files w') : w = w' := by
  induction h generalizing w' with
  | nil => cases h'; rfl
  | cons ho hi hr ihi ihr =>
      cases h' with
      | cons ho' hi' hr' =>
          obtain ⟨-, rfl⟩ := ho.unique ho'
          rw [ihi hi', ihr hr']

theorem subset (h : Walk m files w) : files ⊆ w := by
  induction h with
  | nil => exact List.Subset.refl _
  | cons _ _ _ _ ihr =>
      refine List.cons_subset.2 ⟨by simp, fun f hf => ?_⟩
      simp [ihr hf]

/-- The walk from a file on a walk is a part of it. -/
theorem part (h : Walk m files w) (hp : p ∈ w) :
    ∃ u, Walk m [p] u ∧ u ⊆ w ∧ u.length ≤ w.length := by
  induction h with
  | nil => simp at hp
  | @cons file files content targets inner rest ho hi hr ihi ihr =>
      rcases List.mem_append.1 hp with hp | hp
      · -- below the first file
        obtain ⟨u, hu, hs, hl⟩ := ihi hp
        exact ⟨u, hu, fun x hx => by simp [hs hx], by simp; omega⟩
      · rcases List.mem_cons.1 hp with rfl | hp
        · -- the first file itself
          have hs : (inner ++ [p]).Sublist (inner ++ p :: rest) :=
            ((List.nil_sublist rest).cons_cons p).append_left inner
          exact ⟨inner ++ [p], single ho hi, hs.subset, hs.length_le⟩
        · obtain ⟨u, hu, hs, hl⟩ := ihr hp
          exact ⟨u, hu, fun x hx => by simp [hs hx], by simp; omega⟩

/-- A file is left once in the walk from it, at the end. -/
theorem not_mem {inner : List String} (h : Walk m [p] (inner ++ [p])) : p ∉ inner := by
  obtain ⟨content, targets, inner', ho, hi, e⟩ := h.of_single
  obtain rfl := List.append_cancel_right e
  intro hp
  -- a walk from `p` within would be as long as the whole, which is longer
  obtain ⟨u, hu, -, hl⟩ := hi.part hp
  rw [hu.unique h, List.length_append, List.length_singleton] at hl
  omega

theorem opens (h : Walk m files w) (hp : p ∈ w) : ∃ content targets, Opens m p content targets := by
  obtain ⟨u, hu, -⟩ := h.part hp
  obtain ⟨content, targets, inner, ho, -⟩ := hu.of_single
  exact ⟨content, targets, ho⟩

/-- A walk comes through what its files include. -/
theorem closed (h : Walk m files w) (hp : p ∈ w) (hq : Includes m p q) : q ∈ w := by
  obtain ⟨u, hu, hs, -⟩ := h.part hp
  obtain ⟨content, targets, inner, ho, hi, rfl⟩ := hu.of_single
  exact hs (List.mem_append_left _ (hi.subset (ho.includes_iff.1 hq)))

theorem mem_of_reaches (h : Walk m files w) (hp : p ∈ w) (hq : Reaches m p q) : q ∈ w := by
  induction hq with
  | refl => exact hp
  | tail _ hstep ih => exact h.closed ih hstep

theorem reaches_of_mem (h : Walk m files w) (hq : q ∈ w) : ∃ f ∈ files, Reaches m f q := by
  induction h with
  | nil => simp at hq
  | @cons file files content targets inner rest ho hi hr ihi ihr =>
      rcases List.mem_append.1 hq with hq | hq
      · obtain ⟨f, hf, hreach⟩ := ihi hq
        exact ⟨file, by simp, .head (ho.includes_iff.2 hf) hreach⟩
      · rcases List.mem_cons.1 hq with rfl | hq
        · exact ⟨q, by simp, .refl⟩
        · obtain ⟨f, hf, hreach⟩ := ihr hq
          exact ⟨f, by simp [hf], hreach⟩

/-- A walk from a file comes through what the file reaches, and through nothing else. -/
theorem mem_iff (h : Walk m [p] w) : q ∈ w ↔ Reaches m p q := by
  constructor
  · intro hq
    obtain ⟨f, hf, hr⟩ := h.reaches_of_mem hq
    exact List.mem_singleton.1 hf ▸ hr
  · exact h.mem_of_reaches (h.subset (by simp))

/-- A file with a walk can be loaded. -/
theorem sound (h : Walk m [p] w) : Sound m p := by
  refine ⟨fun q hq => h.opens (h.mem_iff.2 hq), fun q hq hcycle => ?_⟩
  obtain ⟨u, hu, -⟩ := h.part (h.mem_iff.2 hq)
  obtain ⟨content, targets, inner, ho, hi, rfl⟩ := hu.of_single
  -- the first file on the way back is on the walk before `q`, and so is `q` with it
  obtain ⟨r, hr, hback⟩ := Relation.TransGen.head'_iff.1 hcycle
  exact hu.not_mem (hi.mem_of_reaches (hi.subset (ho.includes_iff.1 hr)) hback)

theorem exists_of_forall (h : ∀ f ∈ files, ∃ w, Walk m [f] w) : ∃ w, Walk m files w := by
  induction files with
  | nil => exact ⟨[], .nil⟩
  | cons f files ih =>
      obtain ⟨v, hv⟩ := h f (by simp)
      obtain ⟨w, hw⟩ := ih fun g hg => h g (by simp [hg])
      exact ⟨v ++ w, hv.append hw⟩

end Walk

/-- What is reached from a file that can be loaded is reached against a well-founded order: there
are finitely many files, and no cycle among them. -/
theorem Sound.wellFounded (h : Sound m p) :
    WellFounded fun a b : {q // Reaches m p q} => Includes m b.1 a.1 := by
  refine wellFounded_of_acyclic m.files.keys (fun q hq => ?_) h.acyclic
  obtain ⟨content, targets, ho⟩ := h.opens q hq
  exact ho.mem_keys

/-- A file that can be loaded has a walk. -/
theorem Sound.exists_walk (h : Sound m p) : ∃ w, Walk m [p] w := by
  suffices hall : ∀ q : {q // Reaches m p q}, ∃ w, Walk m [q.1] w from hall ⟨p, .refl⟩
  intro q
  -- a file comes after those that it includes
  induction q using h.wellFounded.induction with
  | _ q ih =>
      obtain ⟨content, targets, ho⟩ := h.opens q.1 q.2
      have hall : ∀ f ∈ targets, ∃ w, Walk m [f] w := fun f hf => by
        have he := ho.includes_iff.2 hf
        exact ih ⟨f, q.2.tail he⟩ he
      obtain ⟨inner, hi⟩ := Walk.exists_of_forall hall
      exact ⟨inner ++ [q.1], .single ho hi⟩

end Document

end RenderMaterials
