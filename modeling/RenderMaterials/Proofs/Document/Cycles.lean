import RenderMaterials.Proofs.Document.Loading
import Mathlib.Data.List.Chain

/-!
# Loading documents — cycles

While a file is being loaded, the entered files and the file itself are a trail through the graph of
includes: each of them includes the next one.  A file that is on the trail already closes a cycle,
and the report of the cycle is the part of the trail from there on.

* `Cyclic`: files that include one another in turn, from one of them back to it.
* `Trail.cyclic`: what is reported is cyclic.
* `Fault`: the ways in which a root that has a canonical path is not loaded; `fault_of_loadInto`:
  there is no other.
* `cyclic_of_reported`: a cycle that is reported is there; `reported_of_cycle`: where every file can
  be merged, a cycle that is there is reported.
* `cycle_reported_iff`: both in one.
-/

namespace RenderMaterials

namespace Document

variable {m : MemorySource} {more : Nat} {entered chain : List String} {d : Document}
  {file top path p q : String} {content : JsonObject} {targets : List String} {e : MaterialError}

/-! ### Cycles -/

/-- A chain of files that ends where it begins: each includes the next one, and those before the
last are different files. -/
structure Cyclic (m : MemorySource) (chain : List String) : Prop where
  long   : 2 ≤ chain.length
  closed : chain.head? = chain.getLast?
  nodup  : chain.dropLast.Nodup
  linked : chain.IsChain (Includes m)

/-- A file that stands first in a cyclic chain is reached from itself. -/
theorem Cyclic.transGen (h : Cyclic m chain) : ∃ p ∈ chain, Relation.TransGen (Includes m) p p := by
  obtain ⟨hlong, hclosed, -, hlinked⟩ := h
  match chain, hlong with
  | p :: q :: rest, _ =>
    obtain ⟨hpq, hrest⟩ := List.isChain_cons_cons.1 hlinked
    have hlast : (q :: rest).getLast (List.cons_ne_nil q rest) = p := by
      rw [List.head?_cons, List.getLast?_cons_cons, List.getLast?_eq_some_getLast] at hclosed
      exact (Option.some.inj hclosed).symm
    refine ⟨p, by simp, .head' hpq ?_⟩
    exact List.relationReflTransGen_of_exists_isChain_cons rest hrest hlast

/-! ### Trails -/

/-- The files that are being loaded when a file is asked for, and the file: each of them includes
the next one, and all are reached from the root. -/
structure Trail (m : MemorySource) (top : String) (entered : List String) (path : String) :
    Prop where
  loading : Entered m entered
  linked  : (entered ++ [path]).IsChain (Includes m)
  reached : ∀ p ∈ entered ++ [path], Reaches m top p

namespace Trail

theorem root (m : MemorySource) (top : String) : Trail m top [] top :=
  ⟨Entered.nil, List.isChain_singleton top, fun p hp => by
    rw [List.mem_singleton.1 hp]
    exact .refl⟩

/-- A file that is entered is followed by what it includes. -/
theorem snoc (h : Trail m top entered path) (hp : path ∉ entered)
    (ho : Opens m path content targets) (hq : q ∈ targets) :
    Trail m top (entered ++ [path]) q := by
  have hinc : Includes m path q := ho.includes_iff.2 hq
  refine ⟨h.loading.snoc hp ho, ?_, fun p hm => ?_⟩
  · refine List.isChain_append.2 ⟨h.linked, List.isChain_singleton q, fun x hx y hy => ?_⟩
    obtain rfl : path = x := by simpa using hx
    obtain rfl : q = y := by simpa using hy
    exact hinc
  · rcases List.mem_append.1 hm with hm | hm
    · exact h.reached p hm
    · rw [List.mem_singleton.1 hm]
      exact (h.reached path (by simp)).tail hinc

/-- A file that is entered already closes a cycle. -/
theorem cyclic (h : Trail m top entered path) (hp : path ∈ entered) :
    Cyclic m (entered.dropWhile (· ≠ path) ++ [path]) ∧
      ∀ p ∈ entered.dropWhile (· ≠ path) ++ [path], Reaches m top p := by
  -- the trail from the first place of the file on
  obtain ⟨before, after, rfl, hnew⟩ := List.eq_append_cons_of_mem hp
  have hdrop : (before ++ path :: after).dropWhile (· ≠ path) = path :: after := by
    rw [List.dropWhile_append_of_pos fun x hx => by simpa using fun hxp : x = path => hnew (hxp ▸ hx)]
    simp
  have hsuffix : path :: after ++ [path] <:+ before ++ path :: after ++ [path] :=
    ⟨before, by simp⟩
  rw [hdrop]
  refine ⟨⟨by simp, ?_, ?_, h.linked.suffix hsuffix⟩, fun p hp => ?_⟩
  · rw [List.getLast?_concat, List.cons_append, List.head?_cons]
  · rw [List.dropLast_concat]
    exact (List.nodup_append.1 h.loading.nodup).2.1
  · exact h.reached p (hsuffix.subset hp)

end Trail

/-! ### Failures -/

/-- Why a root is not loaded: a file that it reaches cannot be merged, or files that it reaches make
a cycle. -/
inductive Fault (m : MemorySource) (top : String) : MaterialError → Prop
  | unreadable {p : String} {e : MaterialError} :
      Reaches m top p → readContent m.toSource p = .error e → Fault m top e
  | cycle {chain : List String} :
      Cyclic m chain → (∀ p ∈ chain, Reaches m top p) → Fault m top (.includeCycle chain)

/-- A file is not loaded that closes a cycle, that cannot be merged, or whose includes are not
loaded. -/
theorem loadInto_eq_error {src : Source} (hn : Path.normalize file = .ok path)
    (h : loadInto src more entered d file = .error e) :
    path ∈ entered ∧ e = .includeCycle (entered.dropWhile (· ≠ path) ++ [path]) ∨
    path ∉ entered ∧ (readContent src path = .error e ∨
      ∃ content targets, readContent src path = .ok (content, targets) ∧
        loadTargets src more entered path targets d = .error e) := by
  rw [loadInto_eq, hn, Result.ok_bind] at h
  by_cases he : path ∈ entered
  · simp only [List.contains_iff_mem, he, if_true, Result.throw_eq, Result.error_bind] at h
    exact .inl ⟨he, (Except.error.inj h).symm⟩
  · refine .inr ⟨he, ?_⟩
    by_cases hf : path ∈ d.files
    · simp [he, hf] at h
    · simp only [List.contains_iff_mem, he, hf, if_false, Result.pure_eq] at h
      obtain hr | ⟨c, hr, h⟩ := Result.bind_eq_error.1 h
      · exact .inl hr
      · obtain hl | ⟨d', -, h⟩ := Result.bind_eq_error.1 h
        · exact .inr ⟨c.1, c.2, hr, hl⟩
        · cases h

/-- A file that is asked for along a trail is loaded unless there is a fault. -/
theorem fault_of_loadInto (ht : Trail m top entered path) (hn : Path.normalize file = .ok path)
    (hm : m.size ≤ more + entered.length)
    (h : loadInto m.toSource more entered d file = .error e) : Fault m top e := by
  induction more generalizing entered d file path with
  | zero =>
      obtain ⟨he, rfl⟩ | ⟨he, hr | ⟨content, targets, hr, -⟩⟩ := loadInto_eq_error hn h
      · exact .cycle (ht.cyclic he).1 (ht.cyclic he).2
      · exact .unreadable (ht.reached path (by simp)) hr
      · -- there is no room left for a file that can be entered
        have ho := (readContent_eq_ok (Path.normalize_idempotent hn)).1 hr
        exact absurd (ht.loading.pos he ho hm) (Nat.lt_irrefl 0)
  | succ more ih =>
      obtain ⟨he, rfl⟩ | ⟨he, hr | ⟨content, targets, hr, hl⟩⟩ := loadInto_eq_error hn h
      · exact .cycle (ht.cyclic he).1 (ht.cyclic he).2
      · exact .unreadable (ht.reached path (by simp)) hr
      · -- one of the files that it includes is not loaded
        have ho := (readContent_eq_ok (Path.normalize_idempotent hn)).1 hr
        obtain ⟨q, hq, d', hd'⟩ := Result.exists_of_foldlM_eq_error hl
        have hm' : m.size ≤ more + (entered ++ [path]).length := by
          rw [List.length_append, List.length_singleton]
          omega
        exact ih (ht.snoc he ho hq) (ho.canonical hq) hm' hd'

/-- No file is reported as a cycle because it cannot be merged. -/
theorem not_cycle_of_readContent (h : readContent m.toSource p = .error e) (chain : List String) :
    e ≠ .includeCycle chain := by
  rintro rfl
  obtain h | ⟨fields, -, h⟩ := Result.bind_eq_error.1 h
  · -- the object of the file
    obtain h | ⟨data, -, h⟩ := Result.bind_eq_error.1 h
    · obtain h | ⟨q, -, h⟩ := Result.bind_eq_error.1 h
      · obtain ⟨reason, h⟩ := Path.error_of_normalize h
        cases h
      · split at h <;> cases h
    · split at h <;> cases h
  · obtain h | ⟨targets, -, h⟩ := Result.bind_eq_error.1 h
    · -- its includes
      unfold includeTargets at h
      split at h
      · cases h
      · obtain ⟨entry, -, h⟩ := Result.exists_of_mapM_eq_error h
        unfold includeTarget at h
        split at h
        · obtain ⟨path, reason, h⟩ := Path.error_of_resolveInclude h
          cases h
        · cases h
      · cases h
    · cases h

/-! ### Reports -/

theorem Reaches.canonical (h : Reaches m top p) (ht : Path.normalize top = .ok top) :
    Path.normalize p = .ok p := by
  cases h with
  | refl => exact ht
  | tail _ hinc =>
      obtain ⟨fields, entries, entry, -, -, -, text, -, hr⟩ := hinc
      exact Path.normalize_resolveInclude hr

/-- A load fails with one error: that of the root's path, or a fault. -/
theorem fault_of_load {root : String} {f : LoadFailure} (h : load m.toSource root = .error f) :
    ∃ e, f = .single e ∧ (Path.normalize root = .error e ∨
      ∃ top, Path.normalize root = .ok top ∧ Fault m top e) := by
  unfold load at h
  cases hl : loadInto m.toSource m.toSource.size [] {} root with
  | ok d =>
      rw [hl] at h
      cases h
  | error e =>
      rw [hl] at h
      refine ⟨e, (Except.error.inj h).symm, ?_⟩
      cases hn : Path.normalize root with
      | error e' =>
          rw [loadInto_eq, hn, Result.error_bind] at hl
          exact .inl (congrArg _ (Except.error.inj hl))
      | ok top =>
          have hm : m.size ≤ m.toSource.size + ([] : List String).length := Nat.le_refl _
          exact .inr ⟨top, rfl, fault_of_loadInto (.root m top) hn hm hl⟩

/-- What is loaded reaches no cycle. -/
theorem acyclic_of_load {root : String} (h : load m.toSource root = .ok d)
    (hn : Path.normalize root = .ok top) : Sound m top := by
  obtain ⟨path, w, hn', hw, -⟩ := follows_loadInto m m.size [] [] {} root d Merged.empty
    (fun p hp => absurd hp (by simp)) (load_eq_ok.1 h)
  obtain rfl := Except.ok.inj (hn.symm.trans hn')
  exact hw.sound

/-- What is reported as a cycle is one, and the root reaches it. -/
theorem cyclic_of_reported {root : String} {f : LoadFailure} (hl : load m.toSource root = .error f)
    (hc : .includeCycle chain ∈ f.errors) :
    Cyclic m chain ∧ ∃ top, Path.normalize root = .ok top ∧ (∀ p ∈ chain, Reaches m top p) ∧
      ∃ p, Reaches m top p ∧ Relation.TransGen (Includes m) p p := by
  obtain ⟨e, rfl, he⟩ := fault_of_load hl
  obtain rfl := List.mem_singleton.1 hc
  obtain he | ⟨top, hn, hf⟩ := he
  · obtain ⟨reason, h⟩ := Path.error_of_normalize he
    cases h
  · cases hf with
    | unreadable _ hr => exact absurd rfl (not_cycle_of_readContent hr chain)
    | cycle hcyc hreach =>
        obtain ⟨p, hp, hpp⟩ := hcyc.transGen
        exact ⟨hcyc, top, hn, hreach, p, hreach p hp, hpp⟩

/-- Where every file that the root reaches can be merged, a cycle is reported. -/
theorem reported_of_cycle {root : String} (hn : Path.normalize root = .ok top)
    (hopens : ∀ p, Reaches m top p → ∃ content targets, Opens m p content targets)
    (hp : Reaches m top p) (hcycle : Relation.TransGen (Includes m) p p) :
    ∃ chain, load m.toSource root = .error (.single (.includeCycle chain)) := by
  cases hl : load m.toSource root with
  | ok d => exact absurd hcycle ((acyclic_of_load hl hn).acyclic p hp)
  | error f =>
      obtain ⟨e, rfl, he⟩ := fault_of_load hl
      obtain he | ⟨top', hn', hf⟩ := he
      · cases hn.symm.trans he
      · obtain rfl := Except.ok.inj (hn.symm.trans hn')
        cases hf with
        | unreadable hq hr =>
            obtain ⟨content, targets, ho⟩ := hopens _ hq
            have hcanon := hq.canonical (Path.normalize_idempotent hn)
            cases hr.symm.trans ((readContent_eq_ok hcanon).2 ho)
        | cycle _ _ => exact ⟨_, rfl⟩

/-- A cycle that is reported is a cycle of files that the root reaches, so none is reported where
files are shared without a cycle.  Where every file that the root reaches can be merged, a cycle is
reported exactly when there is one. -/
theorem cycle_reported_iff (m : MemorySource) (root : String) :
    (∀ f chain, load m.toSource root = .error f → .includeCycle chain ∈ f.errors →
      Cyclic m chain ∧ ∃ top, Path.normalize root = .ok top ∧ (∀ p ∈ chain, Reaches m top p) ∧
        ∃ p, Reaches m top p ∧ Relation.TransGen (Includes m) p p) ∧
    ∀ top, Path.normalize root = .ok top →
      (∀ p, Reaches m top p → ∃ content targets, Opens m p content targets) →
      ((∃ chain, load m.toSource root = .error (.single (.includeCycle chain))) ↔
        ∃ p, Reaches m top p ∧ Relation.TransGen (Includes m) p p) := by
  refine ⟨fun f chain hl hc => cyclic_of_reported hl hc, fun top hn hopens => ⟨?_, ?_⟩⟩
  · rintro ⟨chain, hl⟩
    obtain ⟨-, top', hn', -, p, hp⟩ := cyclic_of_reported hl (List.mem_singleton_self _)
    obtain rfl := Except.ok.inj (hn.symm.trans hn')
    exact ⟨p, hp⟩
  · rintro ⟨p, hp, hcycle⟩
    exact reported_of_cycle hn hopens hp hcycle

/-! ### Two files that include each other -/

namespace MutualIncludes

def memory : MemorySource :=
  (({} : MemorySource).insertText "a.json" "\x7b\"includes\":[\"b.json\"]\x7d").insertText "b.json"
    "\x7b\"includes\":[\"./a.json\"]\x7d"

theorem normalize_first : Path.normalize "a.json" = .ok "a.json" := rfl

theorem normalize_second : Path.normalize "b.json" = .ok "b.json" := rfl

theorem both_targets : (readContent memory.toSource "a.json").toOption.map (·.2) = some ["b.json"] ∧
    (readContent memory.toSource "b.json").toOption.map (·.2) = some ["a.json"] := by decide +kernel

theorem exists_opens (hp : Path.normalize p = .ok p)
    (h : (readContent memory.toSource p).toOption.map (·.2) = some targets) :
    ∃ content, Opens memory p content targets := by
  obtain ⟨c, hc, rfl⟩ := Option.map_eq_some_iff.1 h
  exact ⟨c.1, (readContent_eq_ok hp).1 (Result.toOption_eq_some.1 hc)⟩

theorem opens_first : ∃ content, Opens memory "a.json" content ["b.json"] :=
  exists_opens normalize_first both_targets.1

theorem opens_second : ∃ content, Opens memory "b.json" content ["a.json"] :=
  exists_opens normalize_second both_targets.2

theorem eq_of_reaches (h : Reaches memory "a.json" p) : p = "a.json" ∨ p = "b.json" := by
  obtain ⟨content, ha⟩ := opens_first
  obtain ⟨content', hb⟩ := opens_second
  induction h with
  | refl => exact .inl rfl
  | tail _ hinc ih =>
      obtain rfl | rfl := ih
      · exact .inr (List.mem_singleton.1 (ha.includes_iff.1 hinc))
      · exact .inl (List.mem_singleton.1 (hb.includes_iff.1 hinc))

/-- The cycle of the two files is reported. -/
theorem mutual_includes_reported : ∃ chain,
    load memory.toSource "a.json" = .error (.single (.includeCycle chain)) ∧
      Cyclic memory chain := by
  obtain ⟨content, ha⟩ := opens_first
  obtain ⟨content', hb⟩ := opens_second
  have hopens : ∀ p, Reaches memory "a.json" p → ∃ content targets, Opens memory p content targets :=
    fun p hp => by
      obtain rfl | rfl := eq_of_reaches hp
      · exact ⟨content, _, ha⟩
      · exact ⟨content', _, hb⟩
  have hcycle : Relation.TransGen (Includes memory) "a.json" "a.json" :=
    .tail (.single (ha.includes_iff.2 (by simp))) (hb.includes_iff.2 (by simp))
  obtain ⟨hsound, hcomplete⟩ := cycle_reported_iff memory "a.json"
  obtain ⟨chain, hl⟩ := (hcomplete "a.json" normalize_first hopens).2 ⟨"a.json", .refl, hcycle⟩
  exact ⟨chain, hl, (hsound _ chain hl (List.mem_singleton_self _)).1⟩

end MutualIncludes

end Document

end RenderMaterials
