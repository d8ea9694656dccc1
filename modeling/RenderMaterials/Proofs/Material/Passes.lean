import RenderMaterials.Material.Read
import RenderMaterials.Proofs.Result
import Mathlib.Data.List.Nodup

/-!
# Passes of materials

A request selects a pass by its name, or the only pass without one.  The names tell passes apart: no
two passes of a material that was read have one name, and one without a name stands alone.

* `Pass.named_of_readAll`: what names the checks let through.
* `Material.resolvePass_unique`: requests that select passes of one name select one pass.
* `Material.resolvePass_of_named`: each pass is the one that its own name selects.
-/

namespace RenderMaterials

/-! ### Names of passes -/

/-- No two passes have one name, and one without a name stands alone. -/
structure Pass.Named (ps : List Pass) : Prop where
  nodup : (ps.map (·.name?)).Nodup
  alone : ∀ p ∈ ps, p.name? = none → ps = [p]

namespace Pass

variable {ctx : ReadContext} {material : String} {whole : Json} {defaults : PassDefaults}
  {ps : List Pass}

theorem named_single (p : Pass) : Named [p] :=
  ⟨List.nodup_singleton _, fun q hq _ => by rw [List.mem_singleton.1 hq]⟩

/-- The names that are checked are new, and each stands once. -/
theorem names_of_checkNames {index : Nat} {seen : List String} {u : Unit}
    (h : checkNames material index seen ps = .ok u) :
    (∀ p ∈ ps, ∃ n, p.name? = some n ∧ n ∉ seen) ∧ (ps.map (·.name?)).Nodup := by
  induction ps generalizing index seen with
  | nil => exact ⟨by simp, List.nodup_nil⟩
  | cons p ps ih =>
      unfold checkNames at h
      split at h
      · cases h
      · next name hname =>
          split at h
          · cases h
          · next hnew =>
              obtain ⟨hall, hnodup⟩ := ih h
              refine ⟨fun q hq => ?_, List.nodup_cons.2 ⟨fun hmem => ?_, hnodup⟩⟩
              · rcases List.mem_cons.1 hq with rfl | hq
                · exact ⟨name, hname, fun hmem => hnew (List.contains_iff_mem.2 hmem)⟩
                · obtain ⟨n, hn, hseen⟩ := hall q hq
                  exact ⟨n, hn, fun hmem => hseen (.tail name hmem)⟩
              · obtain ⟨q, hq, e⟩ := List.mem_map.1 hmem
                obtain ⟨n, hn, hseen⟩ := hall q hq
                obtain rfl : n = name := Option.some.inj (hn.symm.trans (e.trans hname))
                exact hseen (.head seen)

theorem named_of_readAll (h : readAll ctx material whole defaults = .ok ps) : Named ps := by
  unfold readAll at h
  split at h
  · obtain ⟨p, -, h⟩ := Result.bind_eq_ok.1 h
    obtain rfl := Except.ok.inj h
    exact named_single p
  · simp only [Result.throw_eq, Result.error_bind] at h
    split at h
    · cases h
    · obtain ⟨qs, -, h⟩ := Result.bind_eq_ok.1 h
      split at h
      · obtain ⟨u, hu, h⟩ := Result.bind_eq_ok.1 h
        obtain rfl := Except.ok.inj h
        obtain ⟨hall, hnodup⟩ := names_of_checkNames hu
        refine ⟨hnodup, fun p hp hnone => ?_⟩
        obtain ⟨n, hn, -⟩ := hall p hp
        rw [hnone] at hn
        cases hn
      · next hfew =>
          obtain rfl := Except.ok.inj h
          match qs, hfew with
          | [], _ => exact ⟨List.nodup_nil, by simp⟩
          | [p], _ => exact named_single p
          | _ :: _ :: _, hfew => exact absurd (by simp) hfew
  · cases h

end Pass

/-! ### Selecting a pass -/

namespace Material

variable {m : Material} {pass : Option String} {p q : Pass}

theorem resolvePass_some_eq_ok {n : String} :
    m.resolvePass (some n) = .ok q ↔ m.pass? n = some q := by
  rw [resolvePass]
  split <;> simp_all

theorem resolvePass_none_eq_ok : m.resolvePass none = .ok q ↔ m.passes = [q] := by
  rw [resolvePass]
  split <;> simp_all

theorem name_of_pass? {n : String} (h : m.pass? n = some q) : q.name? = some n := by
  simpa using List.find?_some h

theorem mem_passes_of_resolvePass (h : m.resolvePass pass = .ok q) : q ∈ m.passes := by
  cases pass with
  | none => simp [resolvePass_none_eq_ok.1 h]
  | some n => exact List.mem_of_find?_eq_some (resolvePass_some_eq_ok.1 h)

/-- Two requests that select passes of one name select one pass. -/
theorem resolvePass_unique {pass' : Option String} {q' : Pass} (h : m.resolvePass pass = .ok q)
    (h' : m.resolvePass pass' = .ok q') (hq : q.name? = q'.name?) : q = q' := by
  cases pass with
  | none =>
      have hmem := mem_passes_of_resolvePass h'
      rw [resolvePass_none_eq_ok.1 h] at hmem
      exact (List.mem_singleton.1 hmem).symm
  | some n =>
      cases pass' with
      | none =>
          have hmem := mem_passes_of_resolvePass h
          rw [resolvePass_none_eq_ok.1 h'] at hmem
          exact List.mem_singleton.1 hmem
      | some n' =>
          have hp := resolvePass_some_eq_ok.1 h
          have hp' := resolvePass_some_eq_ok.1 h'
          rw [name_of_pass? hp, name_of_pass? hp'] at hq
          obtain rfl := Option.some.inj hq
          exact Option.some.inj (hp.symm.trans hp')

/-! ### Materials that were read -/

theorem named_of_read {ctx : ReadContext} {v : Json} (h : Material.read ctx v = .ok m) :
    Pass.Named m.passes := by
  obtain ⟨id, -, h⟩ := Result.bind_eq_ok.1 h
  obtain ⟨topology, -, h⟩ := Result.bind_eq_ok.1 h
  obtain ⟨parameters, -, h⟩ := Result.bind_eq_ok.1 h
  obtain ⟨passes, hp, h⟩ := Result.bind_eq_ok.1 h
  obtain rfl := Except.ok.inj h
  exact Pass.named_of_readAll hp

/-- Each pass is the one that its own name selects; the only pass has no need of a name. -/
theorem resolvePass_of_named (h : Pass.Named m.passes) (hp : p ∈ m.passes) :
    m.resolvePass p.name? = .ok p ∧ (m.passes = [p] → m.resolvePass none = .ok p) := by
  refine ⟨?_, resolvePass_none_eq_ok.2⟩
  cases hn : p.name? with
  | none => exact resolvePass_none_eq_ok.2 (h.alone p hp hn)
  | some n =>
      obtain ⟨q, hq⟩ : ∃ q, m.pass? n = some q :=
        Option.isSome_iff_exists.1 (List.find?_isSome.2 ⟨p, hp, decide_eq_true hn⟩)
      obtain rfl : q = p := List.inj_on_of_nodup_map h.nodup (List.mem_of_find?_eq_some hq) hp
        ((name_of_pass? hq).trans hn.symm)
      exact resolvePass_some_eq_ok.2 hq

end Material

end RenderMaterials
