import RenderMaterials.Proofs.Source.Canonical

/-!
# Source paths — what survives

A segment of a path names something, steps up (`..`), or counts for nothing.  A step up takes back
the last name before it that is still there.  Counted without a stack: segments *stay below* their
start when no first part of them has more steps up than names, and a name survives when the
segments behind it stay below.

* `foldlM_push_eq`: what is kept after some segments, whatever was kept before them.
* `normalize_eq`: a path is refused or has a canonical form by these counts.
* `Canonical`: how canonical forms are written.
* `normalize_spec`: every path has the canonical form of its surviving names; and a path seen from
  a directory is the one seen from the canonical form of the directory.
* `FromAssets.seen_from_assets`: a path with all kinds of segments.
-/

namespace RenderMaterials.Path

/-! ### Names and steps up -/

/-- A segment that names something. -/
def IsName (s : Segment) : Prop := s ≠ [] ∧ s ≠ ['.'] ∧ s ≠ ['.', '.']

instance (s : Segment) : Decidable (IsName s) := inferInstanceAs (Decidable (_ ∧ _))

/-- How many of the segments name something. -/
def names (ss : List Segment) : Nat := ss.countP (fun s => IsName s)

/-- How many of the segments step up. -/
def stepsUp (ss : List Segment) : Nat := ss.count ['.', '.']

/-- Segments of which no first part has more steps up than names. -/
def StaysBelow (ss : List Segment) : Prop := ∀ front, front <+: ss → stepsUp front ≤ names front

/-- How far segments climb above their start. -/
def climb : List Segment → Nat
  | []      => 0
  | s :: ss =>
    if s = ['.', '.'] then climb ss + 1 else if IsName s then climb ss - 1 else climb ss

section Counts

variable {s : Segment} (ss : List Segment)

theorem stepsUp_up : stepsUp (['.', '.'] :: ss) = stepsUp ss + 1 := List.count_cons_self

theorem stepsUp_other (h : s ≠ ['.', '.']) : stepsUp (s :: ss) = stepsUp ss :=
  List.count_cons_of_ne h

theorem names_name (h : IsName s) : names (s :: ss) = names ss + 1 :=
  List.countP_cons_of_pos (decide_eq_true h)

theorem names_other (h : ¬ IsName s) : names (s :: ss) = names ss :=
  List.countP_cons_of_neg (by simpa using h)

theorem not_isName_up : ¬ IsName ['.', '.'] := fun h => h.2.2 rfl

end Counts

theorem forall_prefix_cons {P : List Segment → Prop} (s : Segment) (ss : List Segment) :
    (∀ front, front <+: s :: ss → P front) ↔ P [] ∧ ∀ front, front <+: ss → P (s :: front) := by
  constructor
  · intro h
    exact ⟨h [] List.nil_prefix, fun front hf => h _ (List.cons_prefix_cons.2 ⟨rfl, hf⟩)⟩
  · rintro ⟨hnil, hcons⟩ front hf
    rcases List.prefix_cons_iff.1 hf with rfl | ⟨rest, rfl, hrest⟩
    · exact hnil
    · exact hcons rest hrest

/-- A climb is told by the steps up and the names of first parts. -/
theorem climb_le_iff (ss : List Segment) (n : Nat) :
    climb ss ≤ n ↔ ∀ front, front <+: ss → stepsUp front ≤ names front + n := by
  induction ss generalizing n with
  | nil => simp [climb, stepsUp, names]
  | cons s ss ih =>
      rw [forall_prefix_cons]
      have hnil : stepsUp [] ≤ names [] + n := Nat.zero_le _
      by_cases hup : s = ['.', '.']
      · subst hup
        simp only [climb, if_true, hnil, true_and, stepsUp_up, names_other _ not_isName_up]
        cases n with
        | zero =>
            -- the first step up is one too many
            refine iff_of_false (by omega) fun h => ?_
            exact absurd (h [] List.nil_prefix) (by simp [stepsUp, names])
        | succ n => simp only [Nat.add_le_add_iff_right, ih n, ← Nat.add_assoc]
      · by_cases hname : IsName s
        · simp only [climb, hup, hname, if_true, if_false, hnil, true_and, stepsUp_other _ hup,
            names_name _ hname, Nat.sub_le_iff_le_add, ih (n + 1)]
          simp only [Nat.add_assoc, Nat.add_comm 1 n]
        · simp only [climb, hup, hname, if_false, hnil, true_and, stepsUp_other _ hup,
            names_other _ hname, ih n]

theorem climb_eq_zero_iff (ss : List Segment) : climb ss = 0 ↔ StaysBelow ss := by
  rw [← Nat.le_zero, climb_le_iff]
  rfl

instance (ss : List Segment) : Decidable (StaysBelow ss) :=
  decidable_of_iff _ (climb_eq_zero_iff ss)

/-! ### Surviving names -/

/-- The names that no step up behind them takes back. -/
def survivors : List Segment → List Segment
  | []      => []
  | s :: ss => if IsName s ∧ StaysBelow ss then s :: survivors ss else survivors ss

theorem push_skip {s : Segment} (hname : ¬ IsName s) (hup : s ≠ ['.', '.'])
    (kept : List Segment) : push kept s = some kept := by
  unfold push
  split <;> simp_all [IsName]

/-- What is kept after some segments: the names that survive, on what they do not take back. -/
theorem foldlM_push_eq (ss kept : List Segment) :
    ss.foldlM push kept =
      if climb ss ≤ kept.length then some ((survivors ss).reverse ++ kept.drop (climb ss))
      else none := by
  induction ss generalizing kept with
  | nil => simp [climb, survivors]
  | cons s ss ih =>
      rw [List.foldlM_cons]
      by_cases hup : s = ['.', '.']
      · subst hup
        cases kept with
        | nil => simp [push, climb]
        | cons k kept => simp [push, climb, survivors, not_isName_up, ih]
      · by_cases hname : IsName s
        · rw [push_name hname.1 hname.2.1 hname.2.2, Option.bind_eq_bind, Option.bind_some,
            ih (s :: kept)]
          simp only [climb, survivors, hup, hname, if_true, if_false, true_and,
            ← climb_eq_zero_iff, List.length_cons, Nat.sub_le_iff_le_add]
          cases hc : climb ss with
          | zero => simp
          | succ n => simp
        · rw [push_skip hname hup, Option.bind_eq_bind, Option.bind_some, ih kept]
          simp [climb, survivors, hup, hname]

theorem surviving_eq (ss : List Segment) :
    surviving ss = if StaysBelow ss then some (survivors ss) else none := by
  rw [surviving, foldlM_push_eq]
  simp only [List.length_nil, Nat.le_zero, climb_eq_zero_iff]
  by_cases h : StaysBelow ss <;> simp [h]

/-- What survives is named, and was there. -/
theorem of_mem_survivors {ss : List Segment} {s : Segment} (h : s ∈ survivors ss) :
    s ∈ ss ∧ IsName s := by
  induction ss with
  | nil => cases h
  | cons t ss ih =>
      unfold survivors at h
      split at h
      · next ht =>
          rcases List.mem_cons.1 h with rfl | h
          · exact ⟨List.mem_cons_self, ht.1⟩
          · exact ⟨List.mem_cons_of_mem t (ih h).1, (ih h).2⟩
      · exact ⟨List.mem_cons_of_mem t (ih h).1, (ih h).2⟩

theorem plain_survivors (path : String) : ∀ s ∈ survivors (segments path), Plain s := by
  intro s hs
  obtain ⟨hmem, hnil, hdot, hdots⟩ := of_mem_survivors hs
  exact ⟨Text.not_sep_of_mem_splitBy isSeparator path.toList s hmem, hnil, hdot, hdots⟩

theorem normalize_eq (path : String) :
    normalize path =
      if ¬ StaysBelow (segments path) then .error (.invalidPath path "escapes the source root")
      else if survivors (segments path) = [] then .error (.invalidPath path "empty path")
      else .ok (render (survivors (segments path))) := by
  unfold normalize
  rw [surviving_eq]
  by_cases hb : StaysBelow (segments path)
  · cases survivors (segments path) <;> simp [hb]
  · simp [hb]

/-- A path has a canonical form when its segments stay below their start and a name survives. -/
theorem normalize_eq_ok {path q : String} :
    normalize path = .ok q ↔ StaysBelow (segments path) ∧ survivors (segments path) ≠ [] ∧
      q = render (survivors (segments path)) := by
  rw [normalize_eq]
  by_cases hb : StaysBelow (segments path)
  · by_cases hs : survivors (segments path) = []
    · simp [hb, hs]
    · simp [hb, hs, eq_comm]
  · simp [hb]

/-! ### How canonical forms are written -/

/-- A path of plain segments with single forward slashes between them. -/
structure Canonical (q : String) : Prop where
  plain        : ∀ s ∈ segments q, Plain s
  no_backslash : '\\' ∉ q.toList
  first        : q.toList.head? ≠ some '/'
  last         : q.toList.getLast? ≠ some '/'

/-- A path in a directory has the segments of both. -/
theorem segments_in (directory relative : String) :
    segments s!"{directory}/{relative}" = segments directory ++ segments relative := by
  have h : (s!"{directory}/{relative}").toList = directory.toList ++ '/' :: relative.toList := by
    simp [toString]
  rw [segments, h]
  exact Text.splitBy_append rfl _ _

theorem head?_of_plain {q : String} (h : ∀ s ∈ segments q, Plain s) :
    q.toList.head? ≠ some '/' := by
  intro hq
  obtain ⟨cs, hcs⟩ := List.head?_eq_some_iff.1 hq
  refine (h [] ?_).ne_nil rfl
  rw [segments, hcs]
  exact List.mem_cons_self

theorem getLast?_of_plain {q : String} (h : ∀ s ∈ segments q, Plain s) :
    q.toList.getLast? ≠ some '/' := by
  intro hq
  obtain ⟨cs, hcs⟩ := List.getLast?_eq_some_iff.1 hq
  refine (h [] ?_).ne_nil rfl
  rw [segments, hcs, Text.splitBy_append rfl]
  exact List.mem_append_right _ List.mem_cons_self

/-- Joined segments hold forward slashes and what the segments hold. -/
theorem mem_render {ss : List Segment} {c : Char} (h : c ∈ (render ss).toList) :
    c = '/' ∨ ∃ s ∈ ss, c ∈ s := by
  rw [toList_render] at h
  induction ss with
  | nil => cases h
  | cons s ss ih =>
      cases ss with
      | nil => exact .inr ⟨s, by simp, by simpa using h⟩
      | cons t ss =>
          rw [List.intercalate_cons_cons, List.mem_append, List.mem_append] at h
          rcases h with (h | h) | h
          · exact .inr ⟨s, by simp, h⟩
          · exact .inl (List.mem_singleton.1 h)
          · exact (ih h).imp id fun ⟨r, hr, hc⟩ => ⟨r, List.mem_cons_of_mem s hr, hc⟩

/-- Plain segments are joined to a canonical form. -/
theorem canonical_render {ss : List Segment} (hne : ss ≠ []) (h : ∀ s ∈ ss, Plain s) :
    Canonical (render ss) := by
  have hplain : ∀ s ∈ segments (render ss), Plain s := by
    rwa [segments_render hne h]
  refine ⟨hplain, fun hc => ?_, head?_of_plain hplain, getLast?_of_plain hplain⟩
  rcases mem_render hc with hc | ⟨s, hs, hc⟩
  · cases hc
  · cases (h s hs).not_separator _ hc

/-! ### Paths seen from a directory -/

section Directory

variable {directory canonical relative : String}

/-- The canonical form of a directory has the names that survive in it. -/
theorem segments_of_normalize (h : normalize directory = .ok canonical) :
    segments canonical = survivors (segments directory) := by
  obtain ⟨-, hne, rfl⟩ := normalize_eq_ok.1 h
  exact segments_render hne (plain_survivors directory)

/-- Behind segments that stay below their start, others take back the innermost names that survive
there, and then survive. -/
theorem surviving_append {ds : List Segment} (h : StaysBelow ds) (rest : List Segment) :
    surviving (ds ++ rest) =
      if climb rest ≤ (survivors ds).length then
        some ((survivors ds).take ((survivors ds).length - climb rest) ++ survivors rest)
      else none := by
  rw [surviving, List.foldlM_append, foldlM_push_eq, (climb_eq_zero_iff ds).2 h]
  simp only [List.length_nil, Nat.le_refl, if_true, List.drop_nil, List.append_nil,
    Option.bind_eq_bind, Option.bind_some, foldlM_push_eq, List.length_reverse]
  split
  · simp [List.drop_reverse]
  · rfl

/-- Behind a directory the segments of a path take back its innermost names, and then survive. -/
theorem surviving_behind (h : normalize directory = .ok canonical) (rest : List Segment) :
    surviving (segments directory ++ rest) =
      if climb rest ≤ (segments canonical).length then
        some ((segments canonical).take ((segments canonical).length - climb rest) ++
          survivors rest)
      else none := by
  rw [segments_of_normalize h]
  exact surviving_append (normalize_eq_ok.1 h).1 rest

theorem join_of_normalize (h : normalize directory = .ok canonical)
    (hr : relative.toList.head? ≠ some '/') :
    join directory relative = normalize s!"{directory}/{relative}" := by
  have hne : directory.isEmpty = false := by
    cases he : directory.isEmpty with
    | false => rfl
    | true =>
        rw [String.isEmpty_iff] at he
        subst he
        cases h
  rw [join, if_neg (by simp [hr, hne])]

/-- Seen from a directory and from its canonical form a path is the same. -/
theorem join_canonical (h : normalize directory = .ok canonical)
    (hr : relative.toList.head? ≠ some '/') (q : String) :
    join directory relative = .ok q ↔ join canonical relative = .ok q := by
  have hc := normalize_idempotent h
  rw [join_of_normalize h hr, join_of_normalize hc hr, normalize_eq_ok_iff, normalize_eq_ok_iff,
    segments_in, segments_in, surviving_behind h, surviving_behind hc]

/-- A path that climbs higher than its directory is deep leaves the source. -/
theorem join_of_climb (h : normalize directory = .ok canonical)
    (hr : relative.toList.head? ≠ some '/')
    (hclimb : (segments canonical).length < climb (segments relative)) :
    join directory relative =
      .error (.invalidPath s!"{directory}/{relative}" "escapes the source root") := by
  rw [join_of_normalize h hr, normalize, segments_in, surviving_behind h,
    if_neg (Nat.not_le.2 hclimb)]

end Directory

/-! ### All paths -/

/-- A path has a canonical form when its segments stay below their start and a name survives; the
form joins the surviving names, and is its own canonical form.  Seen from a directory that has a
canonical form, a path that does not start at the root is the same as seen from that form, and in
both it leaves the source when it has a first part with more steps up than names in it and in the
directory. -/
theorem normalize_spec (p : String) :
    (∀ q, normalize p = .ok q ↔ StaysBelow (segments p) ∧ survivors (segments p) ≠ [] ∧
      q = render (survivors (segments p))) ∧
    (∀ q, normalize p = .ok q → Canonical q ∧ normalize q = .ok q) ∧
    ∀ b r, normalize p = .ok b → r.toList.head? ≠ some '/' →
      (∀ q, join p r = .ok q ↔ join b r = .ok q) ∧
      ((∃ front, front <+: segments r ∧ names front + (segments b).length < stepsUp front) →
        join p r = .error (.invalidPath s!"{p}/{r}" "escapes the source root") ∧
        join b r = .error (.invalidPath s!"{b}/{r}" "escapes the source root")) := by
  refine ⟨fun q => normalize_eq_ok, fun q h => ⟨?_, normalize_idempotent h⟩, fun b r h hr => ?_⟩
  · obtain ⟨-, hne, rfl⟩ := normalize_eq_ok.1 h
    exact canonical_render hne (plain_survivors p)
  · refine ⟨join_canonical h hr, ?_⟩
    rintro ⟨front, hfront, hsteps⟩
    have hclimb : (segments b).length < climb (segments r) := by
      refine Nat.lt_of_not_le fun hle => ?_
      have hsteps' := (climb_le_iff _ _).1 hle front hfront
      omega
    exact ⟨join_of_climb h hr hclimb, join_of_climb (normalize_idempotent h) hr hclimb⟩

/-! ### A directory with every kind of segment -/

namespace FromAssets

theorem normalize_assets : normalize "/assets\\old//../maps/." = .ok "assets/maps" := rfl

/-- Two steps up from the directory are one too few to leave the source, and three are one too
many. -/
theorem seen_from_assets :
    Canonical "assets/maps" ∧
    join "/assets\\old//../maps/." "..\\./..\\fonts" = join "assets/maps" "..\\./..\\fonts" ∧
    join "assets/maps" "..\\./..\\fonts" = .ok "fonts" ∧
    (∃ e, join "/assets\\old//../maps/." "a/../../../../b" = .error e) ∧
    ∃ e, join "assets/maps" "a/../../../../b" = .error e := by
  obtain ⟨-, hcanonical, hjoin⟩ := normalize_spec "/assets\\old//../maps/."
  have hfonts : join "assets/maps" "..\\./..\\fonts" = .ok "fonts" := rfl
  obtain ⟨hsame, -⟩ := hjoin _ "..\\./..\\fonts" normalize_assets (by decide)
  obtain ⟨-, hleaves⟩ := hjoin _ "a/../../../../b" normalize_assets (by decide)
  have hup : ∃ front, front <+: segments "a/../../../../b" ∧
      names front + (segments "assets/maps").length < stepsUp front :=
    ⟨segments "a/../../../..", by decide, by decide⟩
  exact ⟨(hcanonical _ normalize_assets).1, (hsame "fonts").2 hfonts ▸ hfonts.symm, hfonts,
    ⟨_, (hleaves hup).1⟩, _, (hleaves hup).2⟩

end FromAssets

end RenderMaterials.Path
