import RenderMaterials.Source.Memory

/-!
# Source paths — canonical forms

The segments that survive in a path hold no separator, none of them is empty, `.` or `..`, and there
is at least one.  Such segments are found again in the form they are joined to, and they all survive
there.

* `normalize_idempotent`: a canonical form is its own canonical form.
* `normalize_join`, `normalize_resolveInclude`: so are a path seen from a directory and the path of
  an include.
* `read_canonical`: a source in memory has under a canonical form what is read there.
-/

namespace RenderMaterials

namespace Path

/-! ### Plain segments -/

/-- A segment that names something: no separator is in it, and it is not skipped or taken for a step
up. -/
structure Plain (s : Segment) : Prop where
  not_separator : ∀ c ∈ s, isSeparator c = false
  ne_nil : s ≠ []
  ne_dot : s ≠ ['.']
  ne_dots : s ≠ ['.', '.']

theorem push_name {kept : List Segment} {s : Segment} (h₁ : s ≠ []) (h₂ : s ≠ ['.'])
    (h₃ : s ≠ ['.', '.']) : push kept s = some (s :: kept) := by
  unfold push
  split <;> simp_all

theorem push_plain {kept : List Segment} {s : Segment} (h : Plain s) :
    push kept s = some (s :: kept) := push_name h.ne_nil h.ne_dot h.ne_dots

/-- A push leaves nothing but plain segments. -/
theorem plain_push {kept kept' : List Segment} {s : Segment} (hk : ∀ t ∈ kept, Plain t)
    (hs : ∀ c ∈ s, isSeparator c = false) (h : push kept s = some kept') :
    ∀ t ∈ kept', Plain t := by
  unfold push at h
  split at h
  · exact Option.some.inj h ▸ hk
  · exact Option.some.inj h ▸ hk
  · cases h
  · rw [← Option.some.inj h]
    exact fun t ht => hk t (List.mem_cons_of_mem _ ht)
  · next h₁ h₂ h₃ h₄ =>
      rw [← Option.some.inj h]
      intro t ht
      rcases List.mem_cons.1 ht with rfl | ht
      · refine ⟨hs, h₁, h₂, fun e => ?_⟩
        cases kept with
        | nil => exact h₃ rfl e
        | cons k kept => exact h₄ k kept rfl e
      · exact hk t ht

theorem plain_foldlM {ss kept kept' : List Segment} (hk : ∀ t ∈ kept, Plain t)
    (hs : ∀ s ∈ ss, ∀ c ∈ s, isSeparator c = false) (h : ss.foldlM push kept = some kept') :
    ∀ t ∈ kept', Plain t := by
  induction ss generalizing kept with
  | nil =>
      obtain rfl := Option.some.inj h
      exact hk
  | cons s ss ih =>
      rw [List.foldlM_cons, Option.bind_eq_bind, Option.bind_eq_some_iff] at h
      obtain ⟨mid, hp, hm⟩ := h
      exact ih (plain_push hk (hs s (by simp)) hp) (fun r hr => hs r (by simp [hr])) hm

theorem foldlM_plain {ss : List Segment} (h : ∀ s ∈ ss, Plain s) (kept : List Segment) :
    ss.foldlM push kept = some (ss.reverse ++ kept) := by
  induction ss generalizing kept with
  | nil => rfl
  | cons s ss ih =>
      rw [List.foldlM_cons, push_plain (h s (by simp)), Option.bind_eq_bind, Option.bind_some,
        ih fun r hr => h r (by simp [hr])]
      simp

/-! ### Surviving segments -/

theorem plain_of_surviving {path : String} {ss : List Segment}
    (h : surviving (segments path) = some ss) : ∀ s ∈ ss, Plain s := by
  obtain ⟨kept, hk, rfl⟩ := Option.map_eq_some_iff.1 h
  have hp := plain_foldlM (fun t ht => absurd ht (by simp))
    (Text.not_sep_of_mem_splitBy isSeparator path.toList) hk
  exact fun s hs => hp s (List.mem_reverse.1 hs)

theorem surviving_plain {ss : List Segment} (h : ∀ s ∈ ss, Plain s) : surviving ss = some ss := by
  rw [surviving, foldlM_plain h]
  simp

theorem toList_render (ss : List Segment) : (render ss).toList = ['/'].intercalate ss := by
  rw [render, String.toList_intercalate, List.map_map]
  simp [Function.comp_def]

/-- Joined segments are found again. -/
theorem segments_render {ss : List Segment} (hne : ss ≠ []) (h : ∀ s ∈ ss, Plain s) :
    segments (render ss) = ss := by
  rw [segments, toList_render]
  exact Text.splitBy_intercalate rfl hne fun s hs => (h s hs).not_separator

/-! ### Canonical forms -/

theorem normalize_eq_ok_iff {path q : String} :
    normalize path = .ok q ↔
      ∃ ss, surviving (segments path) = some ss ∧ ss ≠ [] ∧ render ss = q := by
  unfold normalize
  split <;> simp_all

/-- A canonical form is its own canonical form. -/
theorem normalize_idempotent {path q : String} (h : normalize path = .ok q) :
    normalize q = .ok q := by
  obtain ⟨ss, hs, hne, rfl⟩ := normalize_eq_ok_iff.1 h
  -- what survived is plain, so it is found again and survives again
  have hp := plain_of_surviving hs
  refine normalize_eq_ok_iff.2 ⟨ss, ?_, hne, rfl⟩
  rw [segments_render hne hp, surviving_plain hp]

/-- A path seen from a directory is canonical. -/
theorem normalize_join {directory relative q : String} (h : join directory relative = .ok q) :
    normalize q = .ok q := by
  unfold join at h
  split at h
  · exact normalize_idempotent h
  · exact normalize_idempotent h

/-- The path of an include is canonical. -/
theorem normalize_resolveInclude {file target q : String}
    (h : resolveInclude file target = .ok q) : normalize q = .ok q := normalize_join h

/-! ### Paths without canonical form -/

theorem error_of_normalize {path : String} {e : MaterialError} (h : normalize path = .error e) :
    ∃ reason, e = .invalidPath path reason := by
  unfold normalize at h
  split at h
  · exact ⟨_, (Except.error.inj h).symm⟩
  · exact ⟨_, (Except.error.inj h).symm⟩
  · cases h

theorem error_of_join {directory relative : String} {e : MaterialError}
    (h : join directory relative = .error e) : ∃ path reason, e = .invalidPath path reason := by
  unfold join at h
  split at h
  · exact ⟨_, error_of_normalize h⟩
  · exact ⟨_, error_of_normalize h⟩

theorem error_of_resolveInclude {file target : String} {e : MaterialError}
    (h : resolveInclude file target = .error e) : ∃ path reason, e = .invalidPath path reason :=
  error_of_join h

end Path

/-! ### Reading under a canonical form -/

theorem MemorySource.read_canonical (m : MemorySource) {p : String} (h : Path.normalize p = .ok p) :
    m.read p = match m.files.value? p with
      | some data => .ok data
      | none      => .error (.fileNotFound p) := by
  unfold MemorySource.read
  rw [h]
  rfl

end RenderMaterials
